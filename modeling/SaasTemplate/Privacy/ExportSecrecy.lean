import SaasTemplate.Privacy.ExportTwins

/-! # Other users in an export

The export of a subject is the same for all twins of a database as long as no row that is
exported shows another user, and only then.
-/

namespace SaasTemplate
namespace Privacy
namespace SubjectData

/-- The export for a subject. -/
def exportFor (text : ExportText) (texts : ExportTexts) (S : Uuid) (context : ExportContext)
    (db : ExportDb) : Except SubjectDataExportError Json :=
  exportSubjectData texts (iterExportRecords text texts) db { context with subjectUserId := some S }

/-- No row of an artifact, an event or an invite shows another user. -/
structure ShowsNoOther (text : ExportText) (S : Uuid) (db : ExportDb) : Prop where
  artifacts : ∀ row ∈ db.exportArtifacts, ¬row.reveals S
  events : ∀ row ∈ db.auditEvents, ¬row.reveals S
  invites : ∀ row ∈ db.invites, ¬row.reveals text (getSubjectEmail text S db) S

variable {text : ExportText} {texts : ExportTexts} {S w : Uuid} {db db' : ExportDb}
variable {context : ExportContext}

/-- The export, by what is collected for it. -/
theorem exportFor_collects (db : ExportDb) :
    exportFor text texts S context db =
      (collectProviders texts (iterExportRecords text texts) db (context.forProviders S)
        exportProviderTypes {}).map fun collected =>
          .obj (headerFields texts { context with subjectUserId := some S } S ++
            [("manifest", manifest (collected.data.map Prod.fst) collected.recordCount
                collected.redactionNotices),
              ("data", .obj collected.data)]) := by
  have providers : ({ context with subjectUserId := some S } : ExportContext).forProviders S =
      context.forProviders S := rfl
  simp only [exportFor, exportSubjectData, providers]
  cases collectProviders texts (iterExportRecords text texts) db (context.forProviders S)
    exportProviderTypes {} <;> rfl

/-! ## Nothing is shown -/

theorem Twins.outboxSelected (h : Twins S db db') (email : String) (row : OutboxRow) :
    outboxSelected text db email row = outboxSelected text db' email row := by
  have invites : ∀ (aggregate : Uuid) (a b : InviteRow), a.Twin S b →
      (isInviteTo text email a && decide (a.id = aggregate)) =
        (isInviteTo text email b && decide (b.id = aggregate)) := by
    intro aggregate a b twin
    rw [twin.same]
    rfl
  unfold SubjectData.outboxSelected
  cases row.aggregateId with
  | none => rfl
  | some aggregate => simp only [any_twins h.invites (invites aggregate)]

theorem Twins.exportRecords (h : Twins S db db') (hides : ShowsNoOther text S db)
    (provider : ExportProviderType) :
    exportRecords text S texts db provider = exportRecords text S texts db' provider := by
  have rest := h.same
  cases provider with
  | userProfile | membershipsBySubject | organisationsBySubjectMembership |
      processingAuthorizations | consentRecords | privacyNoticeAcceptances =>
      rw [rest]
      rfl
  | outboxSubjectReferences =>
      have events : db'.outboxEvents = db.outboxEvents := by rw [rest]
      simp only [SubjectData.exportRecords, h.getSubjectEmail, events]
      cases SubjectData.getSubjectEmail text S db with
      | none => rfl
      | some email => simp only [funext (h.outboxSelected email)]
  | invitesBySubject =>
      simp only [SubjectData.exportRecords, h.getSubjectEmail]
      apply records_twins (fun a b twin => by rw [twin.same]; exact ⟨rfl, rfl⟩)
        (fun a b twin => twin.selected _) h.invites
      intro a stored selected b twin
      exact twin.record _ selected (hides.invites a stored)
  | auditSubjectEvents =>
      apply records_twins (fun a b twin => by rw [twin.same]; exact ⟨rfl, rfl⟩)
        (fun a b twin => twin.selected h) h.auditEvents
      intro a stored _ b twin
      exact twin.record (hides.events a stored)
  | platformStaffBySubject =>
      have selected : ∀ a b : PlatformStaffRow, a.Twin S b →
          staffSelected S a = staffSelected S b := by
        intro a b twin
        simp [staffSelected, twin.isUser, twin.createdBy.iff]
      apply records_twins (fun a b twin => by rw [twin.same]; exact ⟨rfl, rfl⟩) selected
        h.platformStaff
      intro a _ chosen b twin
      exact twin.record chosen
  | dsrWorkflowRecords =>
      apply records_twins (fun a b twin => by rw [twin.same]; exact ⟨rfl, rfl⟩)
        (fun a b twin => twin.selected) h.dataSubjectRequests
      intro a _ _ b twin
      exact twin.record
  | exportArtifactMetadata =>
      apply records_twins (fun a b twin => by rw [twin.same]; exact ⟨rfl, rfl⟩)
        (fun a b twin => twin.selected) h.exportArtifacts
      intro a stored selected b twin
      exact twin.record selected (hides.artifacts a stored)

theorem Twins.exportFor_eq (h : Twins S db db') (hides : ShowsNoOther text S db) :
    exportFor text texts S context db' = exportFor text texts S context db := by
  have same : ∀ p ∈ exportProviderTypes,
      iterExportRecords text texts p db' (context.forProviders S) =
        iterExportRecords text texts p db (context.forProviders S) := by
    intro p _
    simp only [iterExportRecords, ExportContext.forProviders, h.getSubjectUser,
      h.exportRecords hides]
  rw [exportFor_collects, exportFor_collects, collectProviders_congr same]

/-! ## Something is shown -/

/-- Equal exports have equal records. -/
theorem records_of_exportFor (user : getSubjectUser S db ≠ none) (h : Twins S db db')
    (same : exportFor text texts S context db' = exportFor text texts S context db)
    (provider : ExportProviderType) (member : provider ∈ exportProviderTypes) :
    (exportRecords text S texts db provider).map (serialiseRecord texts) =
      (exportRecords text S texts db' provider).map (serialiseRecord texts) := by
  have yields : ∀ (d : ExportDb), getSubjectUser S d ≠ none → ∀ p,
      iterExportRecords text texts p d (context.forProviders S) =
        ⟨exportRecords text S texts d p, none⟩ := by
    intro d found p
    exact if_neg fun missing => found missing.2
  have user' : getSubjectUser S db' ≠ none := h.getSubjectUser ▸ user
  have distinct : ((({} : Collected).data.map Prod.fst) ++
      exportProviderTypes.map ExportProviderType.providerKey).Nodup := by
    simpa using exportProviderTypes_keys
  have data : ∀ d : ExportDb, getSubjectUser S d ≠ none → _ := fun d found =>
    collectProviders_data texts (iterExportRecords text texts) d (context.forProviders S)
      exportProviderTypes
      (fun p _ => by rw [yields d found p]) distinct
  obtain ⟨collected, collects, holds⟩ := data db user
  obtain ⟨collected', collects', holds'⟩ := data db' user'
  rw [exportFor_collects, exportFor_collects, collects, collects'] at same
  have members := Json.obj.inj (Except.ok.inj same)
  have last := List.append_cancel_left members
  simp only [List.cons.injEq, Prod.mk.injEq, Json.obj.injEq, true_and, and_true] at last
  have lists := last.2
  rw [holds, holds'] at lists
  simp only [yields _ user, yields _ user', List.nil_append] at lists
  have each := List.map_inj_left.mp lists provider member
  simp only [Prod.mk.injEq, Json.arr.injEq, true_and] at each
  exact each.symm

theorem jsonMembers_eq (members : List (String × PyValue)) :
    jsonMembers texts members = members.map fun m => (m.1, jsonValue texts m.2) := by
  induction members with
  | nil => rfl
  | cons m ms ih => rw [jsonMembers, ih, List.map_cons]

/-- Records that are serialised alike show the same users at the same places. -/
theorem shown_of_serialised {r r' : PrivacyExportRecord}
    (same : serialiseRecord texts r = serialiseRecord texts r') {index : Nat} {name name' : String}
    {u v : Uuid} (shows : r.payload[index]? = some (name, .uuid u))
    (shows' : r'.payload[index]? = some (name', .uuid v)) : u = v := by
  simp only [serialiseRecord, jsonValue, jsonMembers_eq, Json.obj.injEq, List.cons.injEq,
    Prod.mk.injEq, true_and] at same
  have at_ := congrArg (·[index]?) same.2.2.1
  simp only [List.getElem?_map, shows, shows', Option.map_some, Option.some.injEq, Prod.mk.injEq,
    jsonValue, Json.str.injEq] at at_
  exact texts.uuid_injective u v at_.2

/-! ### The user who is shown, replaced -/

def InviteRow.relink (S w : Uuid) (row : InviteRow) : InviteRow :=
  { row with revokedByUserId := SubjectData.relink S w row.revokedByUserId }

def AuditRow.relink (S w : Uuid) (row : AuditRow) : AuditRow :=
  if row.actorUserId = some S ∧ row.targetType.direct = true then
    { row with targetId := SubjectData.relink S w row.targetId }
  else row

def ArtifactRow.relink (S w : Uuid) (row : ArtifactRow) : ArtifactRow :=
  { row with
    subjectUserId := SubjectData.relink S w row.subjectUserId
    requesterUserId := SubjectData.relink S w row.requesterUserId }

/-- Another user in the links that may be shown. -/
def ExportDb.relink (S w : Uuid) (db : ExportDb) : ExportDb :=
  { db with
    invites := db.invites.map (InviteRow.relink S w)
    auditEvents := db.auditEvents.map (AuditRow.relink S w)
    exportArtifacts := db.exportArtifacts.map (ArtifactRow.relink S w) }

theorem InviteRow.twin_relink (other : w ≠ S) (row : InviteRow) : row.Twin S (row.relink S w) :=
  ⟨rfl, sameFor_relink other _⟩

theorem AuditRow.twin_relink (other : w ≠ S) (row : AuditRow) : row.Twin S (row.relink S w) := by
  unfold AuditRow.relink
  split
  · rename_i shown
    exact ⟨rfl, .refl _, .inr ⟨shown.1, shown.2, sameFor_relink other _⟩⟩
  · exact ⟨rfl, .refl _, .inl rfl⟩

theorem ArtifactRow.twin_relink (other : w ≠ S) (row : ArtifactRow) : row.Twin S (row.relink S w) :=
  ⟨rfl, sameFor_relink other _, sameFor_relink other _, .refl _, .refl _⟩

theorem twins_relink (other : w ≠ S) (db : ExportDb) : Twins S db (db.relink S w) where
  same := rfl
  invites := forall₂_map (InviteRow.twin_relink other) _
  auditEvents := forall₂_map (AuditRow.twin_relink other) _
  platformStaff := List.forall₂_same.mpr fun _ _ => ⟨rfl, .refl _, .refl _⟩
  dataSubjectRequests := List.forall₂_same.mpr fun _ _ => ⟨rfl, .refl _, .refl _, .refl _, .refl _⟩
  exportArtifacts := forall₂_map (ArtifactRow.twin_relink other) _

/-- What is in the payload stays at its place. -/
theorem includeOrMinimise_keeps {fieldName presenceField : String} {actor : Option Uuid}
    {fields : Fields} {index : Nat} {m : String × PyValue} (at_ : fields.1[index]? = some m) :
    (includeOrMinimiseActorField S fieldName presenceField actor fields).1[index]? = some m := by
  have more : ∀ after : List (String × PyValue), (fields.1 ++ after)[index]? = some m := by
    intro after
    rw [List.getElem?_append_left (List.getElem?_eq_some_iff.mp at_).1, at_]
  unfold includeOrMinimiseActorField
  split
  · exact at_
  · split <;> exact more _

theorem artifactRecord_payload {row : ArtifactRow}
    (own : row.subjectUserId = some S ∨ row.requesterUserId = some S) :
    (artifactRecord S row).payload[2]? = some ("subject_user_id", uuidOrNone row.subjectUserId) ∧
      (artifactRecord S row).payload[3]? =
        some ("requester_user_id", uuidOrNone row.requesterUserId) := by
  have notOnly : isActorOnlyRecord S row = false := by
    rcases own with is | is <;> simp [isActorOnlyRecord, is]
  rw [artifactRecord, notOnly, if_neg Bool.false_ne_true]
  exact ⟨includeOrMinimise_keeps (includeOrMinimise_keeps rfl),
    includeOrMinimise_keeps (includeOrMinimise_keeps rfl)⟩

theorem auditRecord_payload {row : AuditRow} (actor : row.actorUserId = some S) :
    (auditRecord S row).payload[4]? = some ("target_id", uuidOrNone row.targetId) := by
  rw [auditRecord]
  simp only [actor, if_true]
  rfl

theorem inviteRecord_payload {row : InviteRow} {address : String}
    (revoked : row.revokedByUserId ≠ none) (differs : text.normalised row.email ≠ address) :
    (inviteRecord text S (some address) row).payload[1]? =
      some ("revoked_by_user_id", uuidOrNone row.revokedByUserId) := by
  obtain ⟨u, is⟩ := Option.ne_none_iff_exists'.mp revoked
  have only : isRevokerOnlyRecord text (some address) row = true := by
    simp [isRevokerOnlyRecord, is, differs]
  rw [inviteRecord, if_pos only]
  rfl

theorem relink_other {u : Uuid} (other : u ≠ S) : relink S w (some u) = some w := by
  simp [relink, other]

/-- The replacement shows in the record of an artifact. -/
theorem ArtifactRow.shown_relink {row : ArtifactRow} {u : Uuid} (other : u ≠ S)
    (own : row.subjectUserId = some S ∨ row.requesterUserId = some S)
    (is : row.subjectUserId = some u ∨ row.requesterUserId = some u)
    (same : serialiseRecord texts (artifactRecord S row) =
      serialiseRecord texts (artifactRecord S (row.relink S w))) : u = w := by
  have own' : (row.relink S w).subjectUserId = some S ∨ (row.relink S w).requesterUserId = some S := by
    rcases own with is | is <;> simp [ArtifactRow.relink, SubjectData.relink, is]
  have before := artifactRecord_payload own
  have after := artifactRecord_payload own'
  rcases is with is | is
  · rw [is] at before
    rw [show (row.relink S w).subjectUserId = some w by
      rw [ArtifactRow.relink, is, relink_other other]] at after
    exact shown_of_serialised same before.1 after.1
  · rw [is] at before
    rw [show (row.relink S w).requesterUserId = some w by
      rw [ArtifactRow.relink, is, relink_other other]] at after
    exact shown_of_serialised same before.2 after.2

/-- The replacement shows in the record of an event. -/
theorem AuditRow.shown_relink {row : AuditRow} {u : Uuid} (other : u ≠ S)
    (actor : row.actorUserId = some S) (kind : row.targetType.direct = true)
    (is : row.targetId = some u)
    (same : serialiseRecord texts (auditRecord S row) =
      serialiseRecord texts (auditRecord S (row.relink S w))) : u = w := by
  have replaced : row.relink S w = { row with targetId := some w } := by
    rw [AuditRow.relink, if_pos ⟨actor, kind⟩, is, relink_other other]
  rw [replaced] at same
  have before := auditRecord_payload actor
  rw [is] at before
  exact shown_of_serialised same before
    (auditRecord_payload (show ({ row with targetId := some w } : AuditRow).actorUserId = some S
      by exact actor))

/-- The replacement shows in the record of an invite. -/
theorem InviteRow.shown_relink {row : InviteRow} {u : Uuid} {address : String} (other : u ≠ S)
    (is : row.revokedByUserId = some u) (differs : text.normalised row.email ≠ address)
    (same : serialiseRecord texts (inviteRecord text S (some address) row) =
      serialiseRecord texts (inviteRecord text S (some address) (row.relink S w))) : u = w := by
  have replaced : row.relink S w = { row with revokedByUserId := some w } := by
    rw [InviteRow.relink, is, relink_other other]
  rw [replaced] at same
  have before := inviteRecord_payload (S := S) (is ▸ Option.some_ne_none u) differs
  rw [is] at before
  exact shown_of_serialised same before (inviteRecord_payload (Option.some_ne_none w) differs)

theorem exists_other (S u : Nat) : ∃ w, w ≠ S ∧ w ≠ u := ⟨S + u + 1, by omega, by omega⟩

section
variable (user : getSubjectUser S db ≠ none)
variable (hidden : ∀ db', Twins S db db' →
  exportFor text texts S context db' = exportFor text texts S context db)
include user hidden

theorem records_relink (other : w ≠ S) (provider : ExportProviderType)
    (member : provider ∈ exportProviderTypes) :
    (exportRecords text S texts db provider).map (serialiseRecord texts) =
      (exportRecords text S texts (db.relink S w) provider).map (serialiseRecord texts) :=
  have twins := twins_relink other db
  records_of_exportFor user twins (hidden _ twins) provider member

theorem artifact_hidden {row : ArtifactRow} (stored : row ∈ db.exportArtifacts) :
    ¬row.reveals S := by
  rintro ⟨ready, own, u, other, is⟩
  obtain ⟨w, wOther, differs⟩ := exists_other S u
  have same := records_relink user hidden wOther .exportArtifactMetadata (by decide)
  simp only [exportRecords, List.map_map] at same
  have selected : artifactSelected S row = true := by
    rcases own with own | own <;> simp [artifactSelected, ready, own]
  have shown := record_of_image (ArtifactRow.relink S w) same (fun _ => ⟨rfl, rfl⟩)
    (fun a => (a.twin_relink wOther).selected) stored selected
  exact differs (row.shown_relink other own is shown).symm

theorem event_hidden {row : AuditRow} (stored : row ∈ db.auditEvents) : ¬row.reveals S := by
  rintro ⟨actor, kind, u, other, is⟩
  obtain ⟨w, wOther, differs⟩ := exists_other S u
  have same := records_relink user hidden wOther .auditSubjectEvents (by decide)
  simp only [exportRecords, List.map_map] at same
  have selected : auditSelected text S db row = true := by simp [auditSelected, actor]
  have key : ∀ a : AuditRow, (a.relink S w).toRow = a.toRow := by
    intro a
    rw [(a.twin_relink wOther).same]
  have shown := record_of_image (AuditRow.relink S w) same
    (fun a => by rw [key a]; exact ⟨rfl, rfl⟩)
    (fun a => (a.twin_relink wOther).selected (twins_relink wOther db)) stored selected
  exact differs (row.shown_relink other actor kind is shown).symm

theorem invite_hidden {row : InviteRow} (stored : row ∈ db.invites) :
    ¬row.reveals text (getSubjectEmail text S db) S := by
  rintro ⟨⟨u, other, is⟩, address, email, sameInSql, differsInPython⟩
  obtain ⟨w, wOther, differs⟩ := exists_other S u
  have same := records_relink user hidden wOther .invitesBySubject (by decide)
  simp only [exportRecords, List.map_map, (twins_relink wOther db).getSubjectEmail, email] at same
  have selected : invitesSelected text S (some address) row = true := by
    simp [invitesSelected, isInviteTo, sameInSql]
  have shown := record_of_image (InviteRow.relink S w) same (fun _ => ⟨rfl, rfl⟩)
    (fun a => (a.twin_relink wOther).selected (some address)) stored selected
  exact differs (row.shown_relink other is differsInPython shown).symm

end

/-- A text of the length of the number for an id. -/
def exampleTexts : ExportTexts where
  uuid id := String.ofList (List.replicate id '0')
  uuid_injective id id' same := by
    have lists := congrArg String.toList same
    simpa using lists
  isoformat _ := "2026-01-01T00:00:00+00:00"
  dateIsoformat _ := "2026-01-01"

def exampleText : ExportText where
  normalised email := email
  sqlNormalised email := email
  payloadEmail _ := none

/-- The archive of an export that a representative requested for the subject 1. -/
def exampleArtifactRow (representative : Uuid) : ArtifactRow where
  id := 10
  sortKey := 0
  columns _ := .null
  status := .ready
  subjectUserId := some 1
  requesterUserId := some representative
  requestedByUserId := none
  generatedByUserId := none

def exampleExportDb (representative : Uuid) : ExportDb where
  users := [1, 2, 3].map fun id => ⟨id, none, fun _ => .null⟩
  memberships := []
  organisations := []
  invites := []
  outboxEvents := []
  auditEvents := []
  platformStaff := []
  dataSubjectRequests := []
  exportArtifacts := [exampleArtifactRow representative]
  purposes := []
  authorizations := []
  consentRecords := []
  noticeAcceptances := []

def exampleExportContext : ExportContext where
  artifactId := 20
  dataSubjectRequestId := 30
  subjectUserId := some 1
  requesterUserId := some 1
  requestType := "export"
  requestStatus := "approved"
  generatedAt := 0
  schemaVersion := "1.0"

end SubjectData
end Privacy
end SaasTemplate
