import SaasTemplate.Privacy.ErasureFrame

/-! # Erasing again

Each provider alone, with the numbers of rows that it reports. What a provider writes it either
does not select again or leaves as it is, so that a second run changes nothing. An execution that
has completed is not repeated: the orchestration looks at the execution status first.
-/

namespace SaasTemplate.Privacy.SubjectErasure

open SaasTemplate.Audit (AuditEvent)
open SaasTemplate.Outbox (OutboxEvent setKey)
open SaasTemplate.Outbox.Scrubbers
open SaasTemplate.Tenancy (Invite isScrubbedInvite)

/-! ## The providers with their reports -/

/-- The rows of an `UPDATE` that change. -/
def affectedRows {ρ : Type} [DecidableEq ρ] (selected : ρ → Bool) (change : Uuid → ρ → ρ)
    (rows : List (Uuid × ρ)) : Nat :=
  (rows.filter fun row => selected row.2 && decide (change row.1 row.2 ≠ row.2)).length

/-- The arguments of a provider: the request, whose object shows its row, the subject, and what
    the snapshot of the orchestration has of the subject. -/
structure ProviderArguments where
  requestId : Uuid
  subjectUserId : Uuid
  subjectEmail : Option String
  inviteIds : List Uuid

/-- `_validate_request` of the remaining inventory, which is given the subject. -/
def validateRemaining (request : DataSubjectRequest) : Except String Unit := do
  raiseIf (request.requestType ≠ .erase) "remaining_erasure_requires_erase_request"
  raiseIf (request.status ≠ .approved) "remaining_erasure_requires_approved_request"

section
variable (text : ErasureText) (times : ErasureTimes) (request : DataSubjectRequest)
variable (args : ProviderArguments) (db : ErasureDb)

/-- The numbers of affected rows that a provider reports, and what it leaves. -/
abbrev ProviderRun : Type := Except String (List Nat × ErasureDb)

def minimiseAuditEventsForApprovedEraseRequest : ProviderRun := do
  let S ← validateRequest "audit_erasure" request
  let subject ← findSubject "audit_erasure_subject_not_found" S db
  let snapshot := auditSnapshot text S (normaliseOptionalEmail text subject.email) db
  let selected := AuditEvent.ofSubject snapshot
  let change := fun _ => AuditEvent.minimised snapshot
  raiseIf (db.auditEvents.any fun row => selected row.2 && row.2.holdActive times.now)
    "audit_erasure_legal_hold_active"
  .ok ([affectedRows selected change db.auditEvents],
    { db with auditEvents := updateWhere selected change db.auditEvents })

def scrubOutboxForApprovedEraseRequest : ProviderRun := do
  let S ← validateRequest "outbox_erasure" request
  let subject ← findSubject "outbox_erasure_subject_not_found" S db
  let email := effectiveEmail text args.subjectEmail subject.email
  let selected := outboxSelected text email args.inviteIds
  raiseIf (db.outboxEvents.any fun row => selected row.2 && row.2.status == .processing)
    "outbox_erasure_processing_rows_in_flight"
  .ok ([affectedRows selected (fun _ => scrubOutboxEvent) db.outboxEvents],
    { db with outboxEvents := updateWhere selected (fun _ => flushedEvent times) db.outboxEvents })

def anonymiseInvitesForApprovedEraseRequest : ProviderRun := do
  let S ← validateRequest "invite_erasure" request
  let subject ← findSubject "invite_erasure_subject_not_found" S db
  let email := effectiveEmail text args.subjectEmail subject.email
  let selected := inviteSelected text S email
  .ok ([affectedRows selected (anonymiseInvite text S email times.now) db.invites],
    { db with invites := updateWhere selected (flushedInvite text S email times) db.invites })

/-- Memberships are retained. -/
def applyMembershipErasurePolicy : ProviderRun := do
  validateRemaining request
  .ok ([0], db)

/-- Organisations are left to a review. -/
def applyOrganisationErasurePolicy : ProviderRun := do
  validateRemaining request
  .ok ([0], db)

def minimisePlatformStaffForApprovedEraseRequest : ProviderRun := do
  validateRemaining request
  let selected := staffSelected args.subjectUserId
  let change := fun _ => minimiseStaff args.subjectUserId
  .ok ([affectedRows selected change db.platformStaff],
    { db with platformStaff := updateWhere selected change db.platformStaff })

def minimiseExportArtifactsForApprovedEraseRequest : ProviderRun := do
  validateRemaining request
  let selected := ExportArtifact.mentions args.subjectUserId
  let change := fun _ => ExportArtifact.minimised args.subjectUserId
  raiseIf (db.exportArtifacts.any fun row => selected row.2 && row.2.status == .processing)
    "export_artifact_erasure_processing_active"
  .ok ([affectedRows selected change db.exportArtifacts],
    { db with exportArtifacts := updateWhere selected change db.exportArtifacts })

/-- The reports on authorisations, on consents, which are retained, and on acceptances. -/
def minimisePrivacyGovernanceForApprovedEraseRequest : ProviderRun := do
  validateRemaining request
  let selected := fun (row : SourcedRow) => row.subjectUserId == args.subjectUserId
  let change := fun (_ : Uuid) (row : SourcedRow) => { row with source := none }
  .ok ([affectedRows selected change db.authorizations, 0,
      affectedRows selected change db.noticeAcceptances],
    { db with
      authorizations := updateWhere selected change db.authorizations
      noticeAcceptances := updateWhere selected change db.noticeAcceptances })

def anonymiseUserProfileForApprovedEraseRequest : ProviderRun := do
  let S ← validateRequest "user_profile_erasure" request
  let subject ← findSubject "user_profile_erasure_subject_not_found" S db
  .ok ([if anonymiseProfile S subject = subject then 0 else 1],
    { db with users := updateAt S (anonymiseProfile S) db.users })

def minimiseDsrWorkflowForApprovedEraseRequest : ProviderRun := do
  validateRemaining request
  let selected := DataSubjectRequest.mentions args.subjectUserId
  let change := fun _ => DataSubjectRequest.minimised args.subjectUserId
  .ok ([affectedRows selected change db.dataSubjectRequests],
    { db with dataSubjectRequests := updateWhere selected change db.dataSubjectRequests })

inductive ErasureProvider where
  | auditEvents | outboxEvents | invites | memberships | organisations | platformStaff
  | exportArtifacts | privacyGovernance | userProfile | dsrWorkflow

/-- A provider on the object of the request. -/
def ErasureProvider.process : ErasureProvider → ProviderRun
  | .auditEvents => minimiseAuditEventsForApprovedEraseRequest text times request db
  | .outboxEvents => scrubOutboxForApprovedEraseRequest text times request args db
  | .invites => anonymiseInvitesForApprovedEraseRequest text times request args db
  | .memberships => applyMembershipErasurePolicy request db
  | .organisations => applyOrganisationErasurePolicy request db
  | .platformStaff => minimisePlatformStaffForApprovedEraseRequest request args db
  | .exportArtifacts => minimiseExportArtifactsForApprovedEraseRequest request args db
  | .privacyGovernance => minimisePrivacyGovernanceForApprovedEraseRequest request args db
  | .userProfile => anonymiseUserProfileForApprovedEraseRequest request db
  | .dsrWorkflow => minimiseDsrWorkflowForApprovedEraseRequest request args db

/-- A provider taken alone. -/
def ErasureProvider.run (provider : ErasureProvider) : ProviderRun :=
  match db.dataSubjectRequests.lookup args.requestId with
  | none => .error "erasure_orchestration_request_not_found"
  | some request => provider.process text times request args db

end

variable {text : ErasureText} {times times' : ErasureTimes} {request : DataSubjectRequest}
variable {args : ProviderArguments} {id S : Uuid} {db db' : ErasureDb} {email : Option String}

/-- What a provider does to the database in the orchestration. -/
def ErasureProvider.plain (provider : ErasureProvider) (text : ErasureText) (times : ErasureTimes)
    (request : DataSubjectRequest) (args : ProviderArguments) (db : ErasureDb) :
    Except String ErasureDb :=
  match provider with
  | .auditEvents => minimiseAuditEvents text times request db
  | .outboxEvents => scrubOutbox text times request args.subjectEmail args.inviteIds db
  | .invites => anonymiseInvites text times request args.subjectEmail db
  | .memberships | .organisations => .ok db
  | .platformStaff => minimisePlatformStaff request args.subjectUserId db
  | .exportArtifacts => minimiseExportArtifacts request args.subjectUserId db
  | .privacyGovernance => minimiseGovernance request args.subjectUserId db
  | .userProfile => anonymiseUserProfile request db
  | .dsrWorkflow => minimiseDsrWorkflow request args.subjectUserId db

/-- The request is an approved erasure. -/
def IsApprovedErasure (request : DataSubjectRequest) : Prop :=
  request.requestType = .erase ∧ request.status = .approved

theorem validateRequest_of (provider : String) (approved : IsApprovedErasure request)
    (subject : request.subjectUserId = some S) : validateRequest provider request = .ok S := by
  simp only [validateRequest, raiseIf, approved.1, approved.2, subject]
  rfl

theorem validateRemaining_of (approved : IsApprovedErasure request) :
    validateRemaining request = .ok () := by
  simp only [validateRemaining, raiseIf, approved.1, approved.2]
  rfl

theorem ok_then {ε α β : Type} (a : α) (f : α → Except ε β) : (Except.ok a >>= f) = f a := rfl

theorem map_ok {ε α β : Type} (a : α) (f : α → β) :
    (Except.ok a : Except ε α).map f = .ok (f a) := rfl

theorem map_then {ε α β γ : Type} (x : Except ε α) (f : α → Except ε β) (g : β → γ) :
    (x >>= f).map g = x >>= fun a => (f a).map g := by
  cases x <;> rfl

/-- Without its report a provider is the one that the orchestration runs. -/
theorem process_eq (provider : ErasureProvider) (approved : IsApprovedErasure request)
    (subject : request.subjectUserId = some args.subjectUserId) (db : ErasureDb) :
    (provider.process text times request args db).map Prod.snd =
      provider.plain text times request args db := by
  have valid : ∀ provider, validateRequest provider request = .ok args.subjectUserId :=
    fun provider => validateRequest_of provider approved subject
  have remaining : validateRemaining request = .ok () := validateRemaining_of approved
  cases provider with
  | auditEvents =>
      simp only [ErasureProvider.process, ErasureProvider.plain, map_then, valid, ok_then,
        minimiseAuditEventsForApprovedEraseRequest, minimiseAuditEvents, map_ok]
  | outboxEvents =>
      simp only [ErasureProvider.process, ErasureProvider.plain, map_then, valid, ok_then,
        scrubOutboxForApprovedEraseRequest, scrubOutbox, map_ok]
  | invites =>
      simp only [ErasureProvider.process, ErasureProvider.plain, map_then, valid, ok_then,
        anonymiseInvitesForApprovedEraseRequest, anonymiseInvites, map_ok]
  | memberships | organisations =>
      simp only [ErasureProvider.process, ErasureProvider.plain, remaining, ok_then,
        applyMembershipErasurePolicy, applyOrganisationErasurePolicy, map_ok]
  | platformStaff =>
      simp only [ErasureProvider.process, ErasureProvider.plain, remaining, valid, ok_then,
        minimisePlatformStaffForApprovedEraseRequest, minimisePlatformStaff, map_ok]
  | exportArtifacts =>
      simp only [ErasureProvider.process, ErasureProvider.plain, map_then, remaining, valid,
        ok_then, minimiseExportArtifactsForApprovedEraseRequest, minimiseExportArtifacts,
        map_ok]
  | privacyGovernance =>
      simp only [ErasureProvider.process, ErasureProvider.plain, remaining, valid, ok_then,
        minimisePrivacyGovernanceForApprovedEraseRequest, minimiseGovernance, map_ok]
  | userProfile =>
      simp only [ErasureProvider.process, ErasureProvider.plain, map_then, valid, ok_then,
        anonymiseUserProfileForApprovedEraseRequest, anonymiseUserProfile, map_ok]
  | dsrWorkflow =>
      simp only [ErasureProvider.process, ErasureProvider.plain, remaining, valid, ok_then,
        minimiseDsrWorkflowForApprovedEraseRequest, minimiseDsrWorkflow, map_ok]

/-- The providers in the order of `_run_core_providers`. -/
def coreProviders : List ErasureProvider :=
  [.auditEvents, .outboxEvents, .invites, .memberships, .organisations, .platformStaff,
    .exportArtifacts, .privacyGovernance, .userProfile, .dsrWorkflow]

/-- The orchestration runs the providers one after the other, with the arguments of its
    snapshot. -/
theorem runCoreProviders_eq (id : Uuid) (approved : IsApprovedErasure request)
    (subject : request.subjectUserId = some S) :
    runCoreProviders text times request S db = (do
      let user ← findSubject "erasure_orchestration_subject_not_found" S db
      let email := normaliseOptionalEmail text user.email
      let args : ProviderArguments :=
        ⟨id, S, email, idsWhere (inviteSelected text S email) db.invites⟩
      coreProviders.foldlM (fun db provider =>
        (provider.process text times request args db).map Prod.snd) db) := by
  unfold runCoreProviders
  refine bind_congr fun user => ?_
  have plain : ∀ (args : ProviderArguments), args.subjectUserId = S →
      (fun (db : ErasureDb) (provider : ErasureProvider) =>
        (provider.process text times request args db).map Prod.snd) =
      fun db provider => provider.plain text times request args db := by
    rintro args rfl
    funext db provider
    exact process_eq provider approved subject db
  dsimp only
  rw [plain _ rfl]
  simp only [coreProviders, List.foldlM_cons, List.foldlM_nil, ErasureProvider.plain, ok_then,
    bind_pure]

/-! ## Rows that are changed again -/

section
variable {ρ : Type} {selected : ρ → Bool} {f g : Uuid → ρ → ρ} {rows : List (Uuid × ρ)}

/-- A changed row that is selected again stays as it is. -/
def Settles (selected : ρ → Bool) (f g : Uuid → ρ → ρ) : Prop :=
  ∀ id row, selected row = true → selected (f id row) = true → g id (f id row) = f id row

theorem mem_updateWhere {row : Uuid × ρ} (settles : Settles selected f g)
    (member : row ∈ updateWhere selected f rows) (again : selected row.2 = true) :
    g row.1 row.2 = row.2 := by
  obtain ⟨before, -, is⟩ := List.mem_map.mp member
  split at is
  · rename_i chosen
    subst is
    exact settles before.1 before.2 chosen again
  · rename_i spared
    subst is
    exact absurd again spared

theorem updateWhere_again (settles : Settles selected f g) :
    updateWhere selected g (updateWhere selected f rows) = updateWhere selected f rows := by
  conv_rhs => rw [← List.map_id (updateWhere selected f rows)]
  refine List.map_congr_left fun row member => ?_
  split
  · rename_i again
    rw [mem_updateWhere settles member again]
    rfl
  · rfl

theorem affectedRows_again [DecidableEq ρ] (settles : Settles selected f g) :
    affectedRows selected g (updateWhere selected f rows) = 0 := by
  rw [affectedRows, List.length_eq_zero_iff, List.filter_eq_nil_iff]
  intro row member
  cases again : selected row.2 with
  | false => simp
  | true => simp [mem_updateWhere settles member again]

/-- None of the rows is selected once the selected ones are changed. -/
theorem spared_updateWhere (spared : ∀ id row, selected (f id row) = false) {row : Uuid × ρ}
    (member : row ∈ updateWhere selected f rows) : selected row.2 = false := by
  obtain ⟨before, -, is⟩ := List.mem_map.mp member
  split at is
  · subst is
    exact spared before.1 before.2
  · rename_i other
    subst is
    exact eq_false_of_ne_true other

theorem settles_of_spared (spared : ∀ id row, selected (f id row) = false) :
    Settles selected f g := by
  intro id row _ again
  rw [spared] at again
  cases again

theorem lookup_updateWhere (id : Uuid) :
    (updateWhere selected f rows).lookup id =
      (rows.lookup id).map fun row => if selected row then f id row else row := by
  induction rows with
  | nil => rfl
  | cons row rows ih =>
      obtain ⟨key, value⟩ := row
      simp only [updateWhere, List.map_cons] at ih ⊢
      by_cases here : id = key
      · subst here
        split <;> simp [*]
      · have other : (id == key) = false := beq_eq_false_iff_ne.mpr here
        split <;> simp [List.lookup_cons, other, ih]

theorem lookup_updateAt (id other : Uuid) (change : ρ → ρ) :
    (updateAt other change rows).lookup id =
      (rows.lookup id).map fun row => if id = other then change row else row := by
  induction rows with
  | nil => rfl
  | cons row rows ih =>
      obtain ⟨key, value⟩ := row
      simp only [updateAt, List.map_cons] at ih ⊢
      by_cases here : id = key
      · subst here
        split <;> simp [*]
      · have different : (id == key) = false := beq_eq_false_iff_ne.mpr here
        split <;> simp [List.lookup_cons, different, ih]

end

theorem flushed_self {ρ : Type} [DecidableEq ρ] (touch : ρ → ρ) (row : ρ) :
    flushed touch row row = row := if_pos rfl

/-! ### Outbox events -/

/-- An item under a marker is not a safe one. -/
theorem safeItems_setKey {key : String} (other : key ∉ safePayloadKeys) (value : Outbox.JsonValue)
    (items : List (String × Outbox.JsonValue)) :
    safeItems (.dict (setKey key value items)) = safeItems (.dict items) := by
  have written : ∀ items : List (String × Outbox.JsonValue),
      (items.map fun item => if item.1 == key then (key, value) else item).filter
        (fun item => safePayloadKeys.contains item.1) =
      items.filter fun item => safePayloadKeys.contains item.1 := by
    intro items
    induction items with
    | nil => rfl
    | cons item items ih =>
        rw [List.map_cons, List.filter_cons, List.filter_cons, ih]
        by_cases here : item.1 = key
        · simp [here, other]
        · simp [here]
  simp only [safeItems, setKey]
  split
  · exact written items
  · simp [List.filter_append, other]

theorem scrubbedPayload_again (payload : Outbox.Payload) :
    scrubbedPayload privacyErasureMarker (scrubbedPayload privacyErasureMarker payload) =
      scrubbedPayload privacyErasureMarker payload := by
  have same : safeItems (scrubbedPayload privacyErasureMarker payload) = safeItems payload := by
    rw [scrubbedPayload, safeItems_setKey (by decide), safeItems_setKey (by decide)]
    cases payload with
    | other json => rfl
    | dict items => simp [safeItems, List.filter_filter]
  rw [scrubbedPayload, same, ← scrubbedPayload]

/-- What the scrubbing of an event looks for. -/
structure IsScrubbedEvent (event : OutboxEvent) : Prop where
  payload : scrubbedPayload privacyErasureMarker event.payload = event.payload
  status : event.status ≠ .pending
  error : event.lastError.any (· ≠ "privacy_erasure_scrubbed") = false

theorem isScrubbedEvent_scrub (event : OutboxEvent) : IsScrubbedEvent (scrubOutboxEvent event) where
  payload := by rw [scrubOutboxEvent_payload, scrubbedPayload_again]
  status := by
    unfold scrubOutboxEvent
    dsimp only
    split
    · simp
    · split <;> assumption
  error := by
    unfold scrubOutboxEvent
    dsimp only
    split
    · rfl
    · split
      · rfl
      · rename_i clear
        exact eq_false_of_ne_true clear

theorem IsScrubbedEvent.touched {event : OutboxEvent} (h : IsScrubbedEvent event)
    (updatedAt : Time) : IsScrubbedEvent { event with updatedAt := updatedAt } :=
  ⟨h.payload, h.status, h.error⟩

theorem IsScrubbedEvent.scrub {event : OutboxEvent} (h : IsScrubbedEvent event) :
    scrubOutboxEvent event = event := by
  unfold scrubOutboxEvent
  dsimp only
  rw [if_neg h.status, h.error, if_neg Bool.false_ne_true, h.payload]

theorem isScrubbedEvent_flushed (event : OutboxEvent) :
    IsScrubbedEvent (flushedEvent times event) := by
  have scrubbed := isScrubbedEvent_scrub event
  rcases flushed_cases _ event (scrubOutboxEvent event) with ⟨same, is⟩ | is
  · rw [flushedEvent, is]
    exact same ▸ scrubbed
  · rw [flushedEvent, is]
    exact scrubbed.touched times.eventsFlushedAt

theorem flushedEvent_again (event : OutboxEvent) :
    flushedEvent times' (flushedEvent times event) = flushedEvent times event := by
  have same : scrubOutboxEvent (flushedEvent times event) = flushedEvent times event :=
    (isScrubbedEvent_flushed event).scrub
  conv_lhs => rw [flushedEvent, same]
  exact flushed_self _ _

theorem status_flushedEvent {event : OutboxEvent} (idle : event.status ≠ .processing) :
    (flushedEvent times event).status ≠ .processing := by
  have scrubbed : (scrubOutboxEvent event).status ≠ .processing := by
    unfold scrubOutboxEvent
    dsimp only
    split
    · simp
    · split <;> assumption
  rcases flushed_cases _ event (scrubOutboxEvent event) with ⟨same, is⟩ | is
  · rw [flushedEvent, is]
    exact idle
  · rw [flushedEvent, is]
    exact scrubbed

/-! ### Invites -/

/-- An invite without a link to the subject, and scrubbed if it has the address, stays. -/
theorem anonymiseInvite_of_clear {invite : Invite} (now : Time) (id : Uuid)
    (link : invite.revokedByUserId ≠ some S)
    (scrubbed : inviteEmailMatches text email invite = true → isScrubbedInvite invite = true) :
    anonymiseInvite text S email now id invite = invite := by
  have kept : (inviteEmailMatches text email invite && !isScrubbedInvite invite) = false := by
    cases addressed : inviteEmailMatches text email invite with
    | false => rfl
    | true => simp [scrubbed addressed]
  unfold anonymiseInvite
  dsimp only
  rw [kept, if_neg Bool.false_ne_true, if_neg link]

theorem anonymiseInvite_flushed (id : Uuid) (invite : Invite) (now : Time) :
    anonymiseInvite text S email now id (flushedInvite text S email times id invite) =
      flushedInvite text S email times id invite :=
  anonymiseInvite_of_clear now id (revoker_flushedInvite id invite)
    (invitee_flushedInvite id (.inr rfl))

theorem flushedInvite_again (id : Uuid) (invite : Invite) :
    flushedInvite text S email times' id (flushedInvite text S email times id invite) =
      flushedInvite text S email times id invite := by
  conv_lhs => rw [flushedInvite, anonymiseInvite_flushed]
  exact flushed_self _ _

/-! ## Providers that run again -/

section
variable {counts : List Nat}

/-- A provider that has run changes nothing when it runs again, and says so. -/
def RunsIdly (again : ProviderRun) (db : ErasureDb) : Prop :=
  ∃ zeros, again = .ok (zeros, db) ∧ ∀ n ∈ zeros, n = 0

theorem minimiseAuditEvents_again
    (ran : minimiseAuditEventsForApprovedEraseRequest text times request db = .ok (counts, db')) :
    RunsIdly (minimiseAuditEventsForApprovedEraseRequest text times' request db') db' := by
  simp only [minimiseAuditEventsForApprovedEraseRequest, bind_ok] at ran
  obtain ⟨S, valid, subject, found, -, -, is⟩ := ran
  cases is
  -- the snapshot is the same, because audit events are not part of it
  let snapshot := auditSnapshot text S (normaliseOptionalEmail text subject.email) db
  have spared : ∀ (_ : Uuid) event,
      (AuditEvent.minimised snapshot event).ofSubject snapshot = false :=
    fun _ => ofSubject_minimised snapshot
  refine ⟨[0], bind_ok.mpr ⟨S, valid, bind_ok.mpr ⟨subject, found, bind_ok.mpr ⟨(), ?_, ?_⟩⟩⟩,
    by simp⟩
  · rw [raiseIf_ok, List.any_eq_false]
    intro row member
    have free : row.2.ofSubject snapshot = false := spared_updateWhere spared member
    intro held
    exact Bool.false_ne_true (free.symm.trans (Bool.and_eq_true_iff.mp held).1)
  · exact congrArg Except.ok (Prod.ext
      (congrArg (fun n => [n]) (affectedRows_again (settles_of_spared spared)))
      (congrArg (fun rows => { db with auditEvents := rows })
        (updateWhere_again (settles_of_spared spared))))

theorem scrubOutbox_again
    (ran : scrubOutboxForApprovedEraseRequest text times request args db = .ok (counts, db')) :
    RunsIdly (scrubOutboxForApprovedEraseRequest text times' request args db') db' := by
  simp only [scrubOutboxForApprovedEraseRequest, bind_ok, raiseIf_ok] at ran
  obtain ⟨S, valid, subject, found, -, idle, is⟩ := ran
  cases is
  let selected := outboxSelected text (effectiveEmail text args.subjectEmail subject.email)
    args.inviteIds
  have writes : Settles selected (fun _ => flushedEvent times) fun _ => flushedEvent times' :=
    fun _ event _ _ => flushedEvent_again event
  have reports : Settles selected (fun _ => flushedEvent times) fun _ => scrubOutboxEvent :=
    fun _ event _ _ => (isScrubbedEvent_flushed event).scrub
  refine ⟨[0], bind_ok.mpr ⟨S, valid, bind_ok.mpr ⟨subject, found, bind_ok.mpr ⟨(), ?_, ?_⟩⟩⟩,
    by simp⟩
  · rw [List.any_eq_false] at idle
    rw [raiseIf_ok, List.any_eq_false]
    intro row member busy
    obtain ⟨chosen, processing⟩ := Bool.and_eq_true_iff.mp busy
    obtain ⟨before, there, same⟩ := List.mem_map.mp member
    split at same
    · rename_i taken
      subst same
      have rested : before.2.status ≠ .processing := fun working =>
        idle before there (by simp [taken, working])
      exact status_flushedEvent rested (beq_iff_eq.mp processing)
    · rename_i spared
      subst same
      exact spared chosen
  · exact congrArg Except.ok (Prod.ext
      (congrArg (fun n => [n]) (affectedRows_again reports))
      (congrArg (fun rows => { db with outboxEvents := rows }) (updateWhere_again writes)))

theorem anonymiseInvites_again
    (ran : anonymiseInvitesForApprovedEraseRequest text times request args db =
      .ok (counts, db')) :
    RunsIdly (anonymiseInvitesForApprovedEraseRequest text times' request args db') db' := by
  simp only [anonymiseInvitesForApprovedEraseRequest, bind_ok] at ran
  obtain ⟨S, valid, subject, found, is⟩ := ran
  cases is
  let email := effectiveEmail text args.subjectEmail subject.email
  have writes : Settles (inviteSelected text S email) (flushedInvite text S email times)
      (flushedInvite text S email times') := fun id invite _ _ => flushedInvite_again id invite
  have reports : Settles (inviteSelected text S email) (flushedInvite text S email times)
      (anonymiseInvite text S email times'.now) :=
    fun id invite _ _ => anonymiseInvite_flushed id invite times'.now
  refine ⟨[0], bind_ok.mpr ⟨S, valid, bind_ok.mpr ⟨subject, found, ?_⟩⟩, by simp⟩
  exact congrArg Except.ok (Prod.ext
    (congrArg (fun n => [n]) (affectedRows_again reports))
    (congrArg (fun rows => { db with invites := rows }) (updateWhere_again writes)))

theorem minimisePlatformStaff_again
    (ran : minimisePlatformStaffForApprovedEraseRequest request args db = .ok (counts, db')) :
    RunsIdly (minimisePlatformStaffForApprovedEraseRequest request args db') db' := by
  simp only [minimisePlatformStaffForApprovedEraseRequest, bind_ok] at ran
  obtain ⟨⟨⟩, valid, is⟩ := ran
  cases is
  have settles : Settles (staffSelected args.subjectUserId)
      (fun _ => minimiseStaff args.subjectUserId) fun _ => minimiseStaff args.subjectUserId := by
    intro _ staff _ _
    simp [minimiseStaff]
  refine ⟨[0], bind_ok.mpr ⟨(), valid, ?_⟩, by simp⟩
  exact congrArg Except.ok (Prod.ext
    (congrArg (fun n => [n]) (affectedRows_again settles))
    (congrArg (fun rows => { db with platformStaff := rows }) (updateWhere_again settles)))

theorem minimiseExportArtifacts_again
    (ran : minimiseExportArtifactsForApprovedEraseRequest request args db = .ok (counts, db')) :
    RunsIdly (minimiseExportArtifactsForApprovedEraseRequest request args db') db' := by
  simp only [minimiseExportArtifactsForApprovedEraseRequest, bind_ok] at ran
  obtain ⟨⟨⟩, valid, -, -, is⟩ := ran
  cases is
  have spared : ∀ (_ : Uuid) (artifact : ExportArtifact),
      (artifact.minimised args.subjectUserId).mentions args.subjectUserId = false :=
    fun _ => artifact_minimised_mentions
  refine ⟨[0], bind_ok.mpr ⟨(), valid, bind_ok.mpr ⟨(), ?_, ?_⟩⟩, by simp⟩
  · rw [raiseIf_ok, List.any_eq_false]
    intro row member busy
    have free : row.2.mentions args.subjectUserId = false := spared_updateWhere spared member
    exact Bool.false_ne_true (free.symm.trans (Bool.and_eq_true_iff.mp busy).1)
  · exact congrArg Except.ok (Prod.ext
      (congrArg (fun n => [n]) (affectedRows_again (settles_of_spared spared)))
      (congrArg (fun rows => { db with exportArtifacts := rows })
        (updateWhere_again (settles_of_spared spared))))

theorem minimisePrivacyGovernance_again
    (ran : minimisePrivacyGovernanceForApprovedEraseRequest request args db =
      .ok (counts, db')) :
    RunsIdly (minimisePrivacyGovernanceForApprovedEraseRequest request args db') db' := by
  simp only [minimisePrivacyGovernanceForApprovedEraseRequest, bind_ok] at ran
  obtain ⟨⟨⟩, valid, is⟩ := ran
  cases is
  have settles : Settles (fun row : SourcedRow => row.subjectUserId == args.subjectUserId)
      (fun _ row => { row with source := none }) fun _ row => { row with source := none } :=
    fun _ _ _ _ => rfl
  refine ⟨[0, 0, 0], bind_ok.mpr ⟨(), valid, ?_⟩, by simp⟩
  refine congrArg Except.ok (Prod.ext ?_ ?_)
  · dsimp only
    rw [affectedRows_again settles, affectedRows_again settles]
  · dsimp only
    rw [updateWhere_again settles, updateWhere_again settles]

theorem anonymiseUserProfile_again
    (ran : anonymiseUserProfileForApprovedEraseRequest request db = .ok (counts, db')) :
    RunsIdly (anonymiseUserProfileForApprovedEraseRequest request db') db' := by
  simp only [anonymiseUserProfileForApprovedEraseRequest, bind_ok] at ran
  obtain ⟨S, valid, subject, found, is⟩ := ran
  cases is
  have known : (updateAt S (anonymiseProfile S) db.users).lookup S =
      some (anonymiseProfile S subject) := by
    rw [lookup_updateAt, findSubject_ok found]
    simp
  refine ⟨[0], bind_ok.mpr ⟨S, valid, bind_ok.mpr ⟨anonymiseProfile S subject, ?_, ?_⟩⟩, by simp⟩
  · rw [findSubject]
    dsimp only
    rw [known]
  · refine congrArg Except.ok (Prod.ext ?_ ?_)
    · exact congrArg (fun n => [n]) (if_pos rfl)
    · refine congrArg (fun rows => { db with users := rows }) ?_
      simp only [updateAt, List.map_map]
      refine List.map_congr_left fun row _ => ?_
      by_cases here : row.1 = S
      · simp [here, anonymiseProfile]
      · simp [here]

theorem minimiseDsrWorkflow_again {request' : DataSubjectRequest}
    (type : request'.requestType = request.requestType) (status : request'.status = request.status)
    (ran : minimiseDsrWorkflowForApprovedEraseRequest request args db = .ok (counts, db')) :
    RunsIdly (minimiseDsrWorkflowForApprovedEraseRequest request' args db') db' := by
  simp only [minimiseDsrWorkflowForApprovedEraseRequest, bind_ok] at ran
  obtain ⟨⟨⟩, valid, is⟩ := ran
  cases is
  have spared : ∀ (_ : Uuid) (row : DataSubjectRequest),
      (row.minimised args.subjectUserId).mentions args.subjectUserId = false :=
    fun _ => minimised_mentions
  have valid' : validateRemaining request' = .ok () := by
    rw [← valid, validateRemaining, validateRemaining, type, status]
  refine ⟨[0], bind_ok.mpr ⟨(), valid', ?_⟩, by simp⟩
  exact congrArg Except.ok (Prod.ext
    (congrArg (fun n => [n]) (affectedRows_again (settles_of_spared spared)))
    (congrArg (fun rows => { db with dataSubjectRequests := rows })
      (updateWhere_again (settles_of_spared spared))))

/-- One case for each provider. -/
theorem ErasureProvider.process_again {provider : ErasureProvider} {request' : DataSubjectRequest}
    (same : request' = request ∨ provider = .dsrWorkflow ∧
      request'.requestType = request.requestType ∧ request'.status = request.status)
    (ran : provider.process text times request args db = .ok (counts, db')) :
    RunsIdly (provider.process text times' request' args db') db' := by
  rcases same with rfl | ⟨rfl, type, status⟩
  · cases provider with
    | auditEvents => exact minimiseAuditEvents_again ran
    | outboxEvents => exact scrubOutbox_again ran
    | invites => exact anonymiseInvites_again ran
    | memberships | organisations =>
        simp only [process, applyMembershipErasurePolicy, applyOrganisationErasurePolicy,
          bind_ok] at ran
        obtain ⟨⟨⟩, valid, is⟩ := ran
        cases is
        exact ⟨[0], bind_ok.mpr ⟨(), valid, rfl⟩, by simp⟩
    | platformStaff => exact minimisePlatformStaff_again ran
    | exportArtifacts => exact minimiseExportArtifacts_again ran
    | privacyGovernance => exact minimisePrivacyGovernance_again ran
    | userProfile => exact anonymiseUserProfile_again ran
    | dsrWorkflow => exact minimiseDsrWorkflow_again rfl rfl ran
  · exact minimiseDsrWorkflow_again type status ran

/-- Only the provider of requests writes requests. -/
theorem ErasureProvider.process_requests {provider : ErasureProvider}
    (ran : provider.process text times request args db = .ok (counts, db')) :
    db'.dataSubjectRequests = db.dataSubjectRequests ∨ provider = .dsrWorkflow ∧
      db'.dataSubjectRequests = updateWhere (DataSubjectRequest.mentions args.subjectUserId)
        (fun _ => DataSubjectRequest.minimised args.subjectUserId) db.dataSubjectRequests := by
  cases provider with
  | auditEvents =>
      simp only [process, minimiseAuditEventsForApprovedEraseRequest, bind_ok] at ran
      obtain ⟨S, -, subject, -, -, -, is⟩ := ran
      cases is
      exact .inl rfl
  | outboxEvents =>
      simp only [process, scrubOutboxForApprovedEraseRequest, bind_ok] at ran
      obtain ⟨S, -, subject, -, -, -, is⟩ := ran
      cases is
      exact .inl rfl
  | invites =>
      simp only [process, anonymiseInvitesForApprovedEraseRequest, bind_ok] at ran
      obtain ⟨S, -, subject, -, is⟩ := ran
      cases is
      exact .inl rfl
  | memberships | organisations =>
      simp only [process, applyMembershipErasurePolicy, applyOrganisationErasurePolicy,
        bind_ok] at ran
      obtain ⟨-, -, is⟩ := ran
      cases is
      exact .inl rfl
  | platformStaff =>
      simp only [process, minimisePlatformStaffForApprovedEraseRequest, bind_ok] at ran
      obtain ⟨-, -, is⟩ := ran
      cases is
      exact .inl rfl
  | exportArtifacts =>
      simp only [process, minimiseExportArtifactsForApprovedEraseRequest, bind_ok] at ran
      obtain ⟨-, -, -, -, is⟩ := ran
      cases is
      exact .inl rfl
  | privacyGovernance =>
      simp only [process, minimisePrivacyGovernanceForApprovedEraseRequest, bind_ok] at ran
      obtain ⟨-, -, is⟩ := ran
      cases is
      exact .inl rfl
  | userProfile =>
      simp only [process, anonymiseUserProfileForApprovedEraseRequest, bind_ok] at ran
      obtain ⟨S, -, subject, -, is⟩ := ran
      cases is
      exact .inl rfl
  | dsrWorkflow =>
      simp only [process, minimiseDsrWorkflowForApprovedEraseRequest, bind_ok] at ran
      obtain ⟨-, -, is⟩ := ran
      cases is
      exact .inr ⟨rfl, rfl⟩

theorem ErasureProvider.run_again (provider : ErasureProvider)
    (ran : provider.run text times args db = .ok (counts, db')) :
    RunsIdly (provider.run text times' args db') db' := by
  unfold ErasureProvider.run at ran ⊢
  cases found : db.dataSubjectRequests.lookup args.requestId with
  | none =>
      rw [found] at ran
      cases ran
  | some request =>
      rw [found] at ran
      rcases ErasureProvider.process_requests ran with same | ⟨rfl, minimised⟩
      · rw [same, found]
        exact ErasureProvider.process_again (.inl rfl) ran
      · rw [minimised, lookup_updateWhere, found]
        refine ErasureProvider.process_again (.inr ⟨rfl, ?_⟩) ran
        dsimp only
        split <;> exact ⟨rfl, rfl⟩

end

/-! ## Executions that have completed -/

/-- `execute_core_erasure_for_approved_request` with any providers. -/
def executeWith (runProviders : DataSubjectRequest → Uuid → ErasureDb → Except String ErasureDb)
    (times : ErasureTimes) (id : Uuid) (db : ErasureDb) :
    Except String (ErasureStatus × ErasureDb) := do
  let request ← lockAndValidateRequest id db
  if request.executionStatus = .ready then .ok (.alreadyCompleted, db)
  else match request.subjectUserId with
    | none => .error "erasure_orchestration_requires_subject_user"
    | some S =>
        let processing := db.changeRequest id (DataSubjectRequest.markedProcessing times.now)
        match runProviders (request.markedProcessing times.now) S processing with
        | .error reasonCode => .ok (.failed reasonCode,
            processing.changeRequest id (DataSubjectRequest.markedFailed reasonCode times.now))
        | .ok erased => .ok (.completed,
            erased.changeRequest id (DataSubjectRequest.markedReady times.now))

theorem executeCoreErasure_eq (text : ErasureText) (times : ErasureTimes) (id : Uuid)
    (db : ErasureDb) :
    executeCoreErasure text times id db = executeWith (runCoreProviders text times) times id db :=
  rfl

/-- The row of the request has a property. -/
def Shows (P : DataSubjectRequest → Prop) (id : Uuid) (db : ErasureDb) : Prop :=
  ∃ request, db.dataSubjectRequests.lookup id = some request ∧ P request

/-- The erasure of the request has completed; the row may be anything else. -/
def IsCompleted (id : Uuid) (db : ErasureDb) : Prop :=
  Shows (fun request => request.requestType = .erase ∧ request.executionStatus = .ready) id db

/-- No provider is asked, whichever they are. -/
theorem IsCompleted.executeWith (h : IsCompleted id db)
    (runProviders : DataSubjectRequest → Uuid → ErasureDb → Except String ErasureDb)
    (times : ErasureTimes) : executeWith runProviders times id db = .ok (.alreadyCompleted, db) := by
  obtain ⟨request, found, type, ready⟩ := h
  have valid : lockAndValidateRequest id db = .ok request := by
    simp only [lockAndValidateRequest, found, type, ready, raiseIf]
    rfl
  rw [SubjectErasure.executeWith, valid, ok_then, if_pos ready]

section
variable {P Q : DataSubjectRequest → Prop} {change : DataSubjectRequest → DataSubjectRequest}

theorem Shows.changeOwn (h : Shows P id db) (becomes : ∀ request, P request → Q (change request)) :
    Shows Q id (db.changeRequest id change) := by
  obtain ⟨request, found, holds⟩ := h
  refine ⟨change request, ?_, becomes request holds⟩
  rw [ErasureDb.changeRequest]
  dsimp only
  rw [lookup_updateAt, found, Option.map_some, if_pos rfl]

theorem Shows.changeOther (h : Shows P id db) {other : Uuid} (apart : other ≠ id)
    (change : DataSubjectRequest → DataSubjectRequest) :
    Shows P id (db.changeRequest other change) := by
  obtain ⟨request, found, holds⟩ := h
  refine ⟨request, ?_, holds⟩
  rw [ErasureDb.changeRequest]
  dsimp only
  rw [lookup_updateAt, found, Option.map_some, if_neg (Ne.symm apart)]

/-- The providers only take links and notes from a request. -/
theorem Shows.erased (h : Shows P id db) (kept : ∀ request, P request → P (request.minimised S))
    (email : Option String) : Shows P id (erased text times S email db) := by
  obtain ⟨request, found, holds⟩ := h
  refine ⟨_, by rw [SubjectErasure.erased, lookup_updateWhere, found, Option.map_some], ?_⟩
  split
  · exact kept request holds
  · exact holds

end

/-- The execution of any request leaves a completed one completed. -/
theorem IsCompleted.execute (h : IsCompleted id db) {other : Uuid} {outcome : ErasureStatus}
    (ends : executeCoreErasure text times other db = .ok (outcome, db')) : IsCompleted id db' := by
  by_cases apart : other = id
  · subst apart
    rw [executeCoreErasure_eq, h.executeWith] at ends
    cases ends
    exact h
  · cases executeCoreErasure_ending ends with
    | alreadyCompleted => exact h
    | failed reasonCode => exact (h.changeOther apart _).changeOther apart _
    | completed subject idle =>
        refine Shows.changeOther ?_ apart _
        exact (h.changeOther apart _).erased (fun _ completed => completed) _

theorem isCompleted_of_completed
    (done : executeCoreErasure text times id db = .ok (.completed, db')) : IsCompleted id db' := by
  have erasure : Shows (fun request => request.requestType = .erase) id db := by
    simp only [executeCoreErasure, bind_ok] at done
    obtain ⟨request, valid, -⟩ := done
    have found := lockAndValidateRequest_ok valid
    refine ⟨request, found, ?_⟩
    simp only [lockAndValidateRequest, found, bind_ok, raiseIf_ok] at valid
    obtain ⟨-, kind, -⟩ := valid
    simpa using kind
  cases executeCoreErasure_ending done with
  | completed subject idle =>
      have started : Shows (fun request => request.requestType = .erase) id
          (db.changeRequest id (DataSubjectRequest.markedProcessing times.now)) :=
        erasure.changeOwn fun _ kind => kind
      exact (started.erased (fun _ kind => kind) _).changeOwn fun _ kind => ⟨kind, rfl⟩

/-- Executions one after the other. One that is refused leaves the database. -/
def executeAll (text : ErasureText) : List (ErasureTimes × Uuid) → ErasureDb → ErasureDb
  | [], db => db
  | (times, id) :: rest, db =>
      match executeCoreErasure text times id db with
      | .error _ => executeAll text rest db
      | .ok (_, db') => executeAll text rest db'

theorem IsCompleted.executeAll (h : IsCompleted id db) (later : List (ErasureTimes × Uuid)) :
    IsCompleted id (executeAll text later db) := by
  induction later generalizing db with
  | nil => exact h
  | cons call rest ih =>
      rw [SubjectErasure.executeAll]
      split
      · exact ih h
      · rename_i ends
        exact ih (h.execute ends)

/-- A provider that runs again changes nothing and reports no rows. An execution that has completed
    is not repeated, after whatever other executions and whatever else its row has become. -/
theorem erasure_idempotent (text : ErasureText) :
    (∀ (provider : ErasureProvider) (times times' : ErasureTimes) (args : ProviderArguments)
      (db db' : ErasureDb) (counts : List Nat),
      provider.run text times args db = .ok (counts, db') →
        ∃ zeros, provider.run text times' args db' = .ok (zeros, db') ∧ ∀ n ∈ zeros, n = 0) ∧
    (∀ (times times' : ErasureTimes) (id : Uuid) (db db' : ErasureDb),
      executeCoreErasure text times id db = .ok (.completed, db') → ∀ later runProviders,
        executeWith runProviders times' id (executeAll text later db') =
          .ok (.alreadyCompleted, executeAll text later db')) ∧
    ∀ (id : Uuid) (db : ErasureDb), IsCompleted id db → ∀ runProviders times,
      executeWith runProviders times id db = .ok (.alreadyCompleted, db) := by
  refine ⟨fun provider _ _ _ _ _ _ ran => provider.run_again ran, ?_, ?_⟩
  · intro times times' id db db' done later runProviders
    have completed : IsCompleted id (executeAll text later db') :=
      (isCompleted_of_completed done).executeAll later
    exact completed.executeWith runProviders times'
  · intro id db completed runProviders times
    exact completed.executeWith runProviders times

/-- The provider of invites clears one link and scrubs one address, and then nothing. -/
theorem erasure_idempotent_example :
    ∃ db', ErasureProvider.invites.run exampleErasureText exampleTimes ⟨1, 100, none, [2, 4]⟩
        exampleErasureDb = .ok ([2], db') ∧
      (∃ zeros, ErasureProvider.invites.run exampleErasureText ⟨20, 21, 22⟩ ⟨1, 100, none, [2, 4]⟩
        db' = .ok (zeros, db') ∧ ∀ n ∈ zeros, n = 0) ∧
      ∃ done, executeCoreErasure exampleErasureText exampleTimes 1 exampleErasureDb =
          .ok (.completed, done) ∧
        executeWith (fun _ _ _ => .error "asked") exampleTimes 1 done =
          .ok (.alreadyCompleted, done) := by
  obtain ⟨runs, later, -⟩ := erasure_idempotent exampleErasureText
  have ran : ∃ db', ErasureProvider.invites.run exampleErasureText exampleTimes
      ⟨1, 100, none, [2, 4]⟩ exampleErasureDb = .ok ([2], db') := ⟨_, rfl⟩
  obtain ⟨db', ran⟩ := ran
  obtain ⟨done, completes⟩ := exampleErasure_completes
  exact ⟨db', ran, runs _ _ ⟨20, 21, 22⟩ _ _ _ _ ran, done, completes,
    later exampleTimes exampleTimes 1 _ done completes [] fun _ _ _ => .error "asked"⟩

end SaasTemplate.Privacy.SubjectErasure
