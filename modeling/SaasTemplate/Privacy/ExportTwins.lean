import Mathlib.Data.List.Forall2
import SaasTemplate.Privacy.ExportProviders

/-! # Databases that differ in other users

Twins differ only in the users other than the subject that occupy links of their rows. Each
provider selects the same rows of both, and makes the same records of them unless a row
reveals another user.
-/

namespace SaasTemplate
namespace Privacy
namespace SubjectData

open SaasTemplate.Audit (AuditTargetType)

variable {text : ExportText} {texts : ExportTexts} {S w : Uuid}

/-! ## Links -/

/-- The same occupant, or users other than the subject. -/
def SameFor (S : Uuid) (a b : Option Uuid) : Prop :=
  a = b ∨ ∃ u v, a = some u ∧ b = some v ∧ u ≠ S ∧ v ≠ S

theorem SameFor.refl (a : Option Uuid) : SameFor S a a := .inl rfl

theorem SameFor.iff {a b : Option Uuid} (h : SameFor S a b) : a = some S ↔ b = some S := by
  rcases h with rfl | ⟨u, v, rfl, rfl, uOther, vOther⟩
  · rfl
  · simp [uOther, vOther]

theorem SameFor.isSome {a b : Option Uuid} (h : SameFor S a b) : a.isSome = b.isSome := by
  rcases h with rfl | ⟨u, v, rfl, rfl, -, -⟩ <;> rfl

theorem SameFor.filter {a b : Option Uuid} (h : SameFor S a b) :
    (a.filter fun id => id = S) = b.filter fun id => id = S := by
  rcases h with rfl | ⟨u, v, rfl, rfl, uOther, vOther⟩
  · rfl
  · simp [Option.filter, uOther, vOther]

/-- A link without another user in it is the same in both. -/
theorem SameFor.eq {a b : Option Uuid} (h : SameFor S a b) (none : ∀ u, a = some u → u = S) :
    a = b := by
  rcases h with same | ⟨u, v, is, -, other, -⟩
  · exact same
  · exact absurd (none u is) other

theorem SameFor.masked {a b : Option Uuid} (h : SameFor S a b) (fieldName presenceField : String)
    (fields : Fields) :
    includeOrMinimiseActorField S fieldName presenceField a fields =
      includeOrMinimiseActorField S fieldName presenceField b fields := by
  rcases h with rfl | ⟨u, v, rfl, rfl, uOther, vOther⟩
  · rfl
  · simp [includeOrMinimiseActorField, uOther, vOther]

/-- Another user in the link instead of those who are in it, except for the subject. -/
def relink (S w : Uuid) (link : Option Uuid) : Option Uuid :=
  link.map fun u => if u = S then S else w

theorem sameFor_relink (other : w ≠ S) (link : Option Uuid) : SameFor S link (relink S w link) := by
  cases link with
  | none => exact .inl rfl
  | some u =>
      by_cases is : u = S
      · exact .inl (by simp [relink, is])
      · exact .inr ⟨u, w, rfl, by simp [relink, is], is, other⟩

/-! ## Rows -/

structure InviteRow.Twin (S : Uuid) (a b : InviteRow) : Prop where
  same : b = { a with revokedByUserId := b.revokedByUserId }
  revokedBy : SameFor S a.revokedByUserId b.revokedByUserId

structure AuditRow.Twin (S : Uuid) (a b : AuditRow) : Prop where
  same : b = { a with actorUserId := b.actorUserId, targetId := b.targetId }
  actor : SameFor S a.actorUserId b.actorUserId
  target : a.targetId = b.targetId ∨
    (a.actorUserId = some S ∧ a.targetType.direct = true ∧ SameFor S a.targetId b.targetId)

structure PlatformStaffRow.Twin (S : Uuid) (a b : PlatformStaffRow) : Prop where
  same : b = { a with userId := b.userId, createdByUserId := b.createdByUserId }
  user : SameFor S (some a.userId) (some b.userId)
  createdBy : SameFor S a.createdByUserId b.createdByUserId

structure RequestRow.Twin (S : Uuid) (a b : RequestRow) : Prop where
  same : b = { a with
    requesterUserId := b.requesterUserId
    subjectUserId := b.subjectUserId
    reviewerUserId := b.reviewerUserId
    representativeVerifiedByUserId := b.representativeVerifiedByUserId }
  requester : SameFor S a.requesterUserId b.requesterUserId
  subject : SameFor S a.subjectUserId b.subjectUserId
  reviewer : SameFor S a.reviewerUserId b.reviewerUserId
  verifiedBy : SameFor S a.representativeVerifiedByUserId b.representativeVerifiedByUserId

structure ArtifactRow.Twin (S : Uuid) (a b : ArtifactRow) : Prop where
  same : b = { a with
    subjectUserId := b.subjectUserId
    requesterUserId := b.requesterUserId
    requestedByUserId := b.requestedByUserId
    generatedByUserId := b.generatedByUserId }
  subject : SameFor S a.subjectUserId b.subjectUserId
  requester : SameFor S a.requesterUserId b.requesterUserId
  requestedBy : SameFor S a.requestedByUserId b.requestedByUserId
  generatedBy : SameFor S a.generatedByUserId b.generatedByUserId

/-- The databases differ only in the users other than the subject that occupy links. -/
structure Twins (S : Uuid) (db db' : ExportDb) : Prop where
  same : db' = { db with
    invites := db'.invites
    auditEvents := db'.auditEvents
    platformStaff := db'.platformStaff
    dataSubjectRequests := db'.dataSubjectRequests
    exportArtifacts := db'.exportArtifacts }
  invites : List.Forall₂ (InviteRow.Twin S) db.invites db'.invites
  auditEvents : List.Forall₂ (AuditRow.Twin S) db.auditEvents db'.auditEvents
  platformStaff : List.Forall₂ (PlatformStaffRow.Twin S) db.platformStaff db'.platformStaff
  dataSubjectRequests :
    List.Forall₂ (RequestRow.Twin S) db.dataSubjectRequests db'.dataSubjectRequests
  exportArtifacts : List.Forall₂ (ArtifactRow.Twin S) db.exportArtifacts db'.exportArtifacts

/-! ## Lists of rows in step -/

section
variable {α β : Type} {R : α → α → Prop}

theorem any_twins {f g : α → Bool} {rows rows' : List α} (h : List.Forall₂ R rows rows')
    (same : ∀ a b, R a b → f a = g b) : rows.any f = rows'.any g := by
  induction h with
  | nil => rfl
  | cons first _ ih => rw [List.any_cons, List.any_cons, same _ _ first, ih]

theorem filter_twins {f g : α → Bool} {rows rows' : List α} (h : List.Forall₂ R rows rows')
    (same : ∀ a b, R a b → f a = g b) : List.Forall₂ R (rows.filter f) (rows'.filter g) := by
  induction h with
  | nil => exact .nil
  | @cons a b _ _ first _ ih =>
      rw [List.filter_cons, List.filter_cons, ← same a b first]
      split
      · exact .cons first ih
      · exact ih

theorem orderedInsert_twins {row : α → Row}
    (key : ∀ a b, R a b → (row a).id = (row b).id ∧ (row a).sortKey = (row b).sortKey)
    {a b : α} (new : R a b) {rows rows' : List α} (h : List.Forall₂ R rows rows') :
    List.Forall₂ R (rows.orderedInsert (pageOrder row) a)
      (rows'.orderedInsert (pageOrder row) b) := by
  induction h with
  | nil => exact .cons new .nil
  | @cons c d _ _ first rest ih =>
      have same : pageOrder row a c ↔ pageOrder row b d := by
        obtain ⟨id, time⟩ := key a b new
        obtain ⟨id', time'⟩ := key c d first
        rw [pageOrder, pageOrder, id, time, id', time']
      rw [List.orderedInsert, List.orderedInsert]
      by_cases before : pageOrder row a c
      · rw [if_pos before, if_pos (same.mp before)]
        exact .cons new (.cons first rest)
      · rw [if_neg before, if_neg (mt same.mpr before)]
        exact .cons first ih

theorem iterModelKeyset_twins {row : α → Row}
    (key : ∀ a b, R a b → (row a).id = (row b).id ∧ (row a).sortKey = (row b).sortKey)
    {f g : α → Bool} (same : ∀ a b, R a b → f a = g b) {rows rows' : List α}
    (h : List.Forall₂ R rows rows') :
    List.Forall₂ R (iterModelKeyset row f rows) (iterModelKeyset row g rows') := by
  unfold iterModelKeyset
  have filtered := filter_twins h same
  generalize rows.filter f = left at filtered
  generalize rows'.filter g = right at filtered
  induction filtered with
  | nil => exact .nil
  | cons first _ ih => exact orderedInsert_twins key first ih

theorem mem_iterModelKeyset {row : α → Row} {f : α → Bool} {rows : List α} {a : α} :
    a ∈ iterModelKeyset row f rows ↔ a ∈ rows ∧ f a = true := by
  rw [iterModelKeyset, (List.perm_insertionSort _ _).mem_iff, List.mem_filter]

theorem map_twins {f g : α → β} {rows rows' : List α} (h : List.Forall₂ R rows rows')
    (same : ∀ a ∈ rows, ∀ b, R a b → f a = g b) : rows.map f = rows'.map g := by
  induction h with
  | nil => rfl
  | cons first _ ih =>
      rw [List.map_cons, List.map_cons, same _ List.mem_cons_self _ first,
        ih fun a member => same a (List.mem_cons_of_mem _ member)]

/-- The records of twin rows. -/
theorem records_twins {row : α → Row}
    (key : ∀ a b, R a b → (row a).id = (row b).id ∧ (row a).sortKey = (row b).sortKey)
    {f g : α → Bool} (selected : ∀ a b, R a b → f a = g b) {rows rows' : List α}
    (h : List.Forall₂ R rows rows') {make make' : α → β}
    (same : ∀ a ∈ rows, f a = true → ∀ b, R a b → make a = make' b) :
    (iterModelKeyset row f rows).map make = (iterModelKeyset row g rows').map make' := by
  apply map_twins (iterModelKeyset_twins key selected h)
  intro a member
  obtain ⟨stored, chosen⟩ := mem_iterModelKeyset.mp member
  exact same a stored chosen

/-- Where the images agree, they agree row by row. -/
theorem twin_of_map {f g : α → β} {rows rows' : List α} (h : List.Forall₂ R rows rows')
    (same : rows.map f = rows'.map g) {a : α} (member : a ∈ rows) : ∃ b, R a b ∧ f a = g b := by
  induction h with
  | nil => cases member
  | cons first _ ih =>
      obtain ⟨head, tail⟩ := List.cons.inj same
      rcases List.mem_cons.mp member with rfl | member
      · exact ⟨_, first, head⟩
      · exact ih tail member

theorem forall₂_map {f : α → α} (each : ∀ a, R a (f a)) (rows : List α) :
    List.Forall₂ R rows (rows.map f) := by
  induction rows with
  | nil => exact .nil
  | cons a rows ih => exact .cons (each a) ih

/-- Where the records of all rows agree with those of their images, so do those of each row. -/
theorem record_of_image {row : α → Row} (image : α → α) {f g : α → Bool} {rows : List α}
    {make make' : α → β}
    (same : (iterModelKeyset row f rows).map make =
      (iterModelKeyset row g (rows.map image)).map make')
    (key : ∀ a, (row (image a)).id = (row a).id ∧ (row (image a)).sortKey = (row a).sortKey)
    (selected : ∀ a, f a = g (image a)) {a : α} (stored : a ∈ rows) (chosen : f a = true) :
    make a = make' (image a) := by
  have twins : List.Forall₂ (fun a b => b = image a) (iterModelKeyset row f rows)
      (iterModelKeyset row g (rows.map image)) := by
    apply iterModelKeyset_twins
    · rintro a _ rfl
      exact ⟨(key a).1.symm, (key a).2.symm⟩
    · rintro a _ rfl
      exact selected a
    · exact forall₂_map (R := fun a b => b = image a) (fun _ => rfl) rows
  obtain ⟨_, rfl, shown⟩ := twin_of_map twins same (mem_iterModelKeyset.mpr ⟨stored, chosen⟩)
  exact shown

end

/-! ## What is selected and how it is read -/

variable {db db' : ExportDb}

theorem InviteRow.Twin.selected {a b : InviteRow} (h : a.Twin S b) (email : Option String) :
    invitesSelected text S email a = invitesSelected text S email b := by
  have revoker := h.revokedBy.iff
  rw [h.same]
  simp [invitesSelected, isInviteTo, revoker]

theorem InviteRow.Twin.revokerOnly {a b : InviteRow} (h : a.Twin S b) (email : Option String) :
    isRevokerOnlyRecord text email a = isRevokerOnlyRecord text email b := by
  have address : a.email = b.email := by rw [h.same]
  rcases h.revokedBy with same | ⟨u, v, is, is', -, -⟩
  · simp only [isRevokerOnlyRecord, same, address]
  · cases email <;> simp [isRevokerOnlyRecord, is, is', address]

theorem PlatformStaffRow.Twin.isUser {a b : PlatformStaffRow} (h : a.Twin S b) :
    a.userId = S ↔ b.userId = S := by
  simpa using h.user.iff

theorem PlatformStaffRow.Twin.record {a b : PlatformStaffRow} (h : a.Twin S b)
    (selected : staffSelected S a = true) : staffRecord S a = staffRecord S b := by
  have user := h.isUser
  have creator := h.createdBy.iff
  have only : isCreatorOnlyRecord S a = isCreatorOnlyRecord S b := by
    simp [isCreatorOnlyRecord, user, creator]
  unfold staffRecord
  rw [← only]
  split
  · rename_i isOnly
    have created : a.createdByUserId = some S := by
      simp only [isCreatorOnlyRecord, Bool.and_eq_true, decide_eq_true_eq] at isOnly
      exact isOnly.1
    rw [h.same]
    simp [creatorReferenceRecord, created, creator.mp created]
  · rename_i notOnly
    have own : a.userId = S := by
      by_contra other
      simp [isCreatorOnlyRecord, other] at notOnly
      simp [staffSelected, other, notOnly] at selected
    have masked := h.createdBy.masked "created_by_user_id" "has_creator"
    rw [h.same]
    simp [subjectStaffRecord, masked, own, user.mp own]

theorem RequestRow.Twin.record {a b : RequestRow} (h : a.Twin S b) :
    requestRecord S a = requestRecord S b := by
  have requester := h.requester.iff
  have subject := h.subject.iff
  have reviewer := h.reviewer.iff
  have verifiedBy := h.verifiedBy.iff
  have only : isReferenceOnlyRecord S a = isReferenceOnlyRecord S b := by
    simp [isReferenceOnlyRecord, requester, subject, reviewer, verifiedBy]
  unfold requestRecord
  rw [← only, h.same]
  simp only [requestReferenceRecord, subjectRequestRecord, reviewFields,
    h.requester.masked, h.subject.masked, h.reviewer.masked, h.verifiedBy.masked]

theorem RequestRow.Twin.selected {a b : RequestRow} (h : a.Twin S b) :
    requestSelected S a = requestSelected S b := by
  simp [requestSelected, h.requester.iff, h.subject.iff, h.reviewer.iff, h.verifiedBy.iff]

theorem ArtifactRow.Twin.selected {a b : ArtifactRow} (h : a.Twin S b) :
    artifactSelected S a = artifactSelected S b := by
  have status : a.status = b.status := by rw [h.same]
  simp [artifactSelected, status, h.requester.iff, h.subject.iff, h.requestedBy.iff,
    h.generatedBy.iff]

theorem ArtifactRow.Twin.actorOnly {a b : ArtifactRow} (h : a.Twin S b) :
    isActorOnlyRecord S a = isActorOnlyRecord S b := by
  simp [isActorOnlyRecord, h.requester.iff, h.subject.iff, h.requestedBy.iff, h.generatedBy.iff]

/-- The record of an artifact shows a subject or a requester other than the subject of the
    export. -/
def ArtifactRow.reveals (S : Uuid) (row : ArtifactRow) : Prop :=
  row.status = .ready ∧ (row.subjectUserId = some S ∨ row.requesterUserId = some S) ∧
    ∃ u, u ≠ S ∧ (row.subjectUserId = some u ∨ row.requesterUserId = some u)

/-- The record of an event that the subject caused shows another user as its target. -/
def AuditRow.reveals (S : Uuid) (row : AuditRow) : Prop :=
  row.actorUserId = some S ∧ row.targetType.direct = true ∧ ∃ u, u ≠ S ∧ row.targetId = some u

/-- The record of an invite shows another user as its revoker: SQL takes the invite for one to
    the subject, and Python does not. -/
def InviteRow.reveals (text : ExportText) (email : Option String) (S : Uuid) (row : InviteRow) :
    Prop :=
  (∃ u, u ≠ S ∧ row.revokedByUserId = some u) ∧
    ∃ address, email = some address ∧ text.sqlNormalised row.email = address ∧
      text.normalised row.email ≠ address

theorem InviteRow.Twin.record {a b : InviteRow} (h : a.Twin S b) (email : Option String)
    (selected : invitesSelected text S email a = true) (hides : ¬a.reveals text email S) :
    inviteRecord text S email a = inviteRecord text S email b := by
  unfold inviteRecord
  rw [← h.revokerOnly]
  split
  · rename_i isOnly
    have revoker : a.revokedByUserId = b.revokedByUserId := by
      apply h.revokedBy.eq
      intro u is
      by_contra other
      apply hides
      refine ⟨⟨u, other, is⟩, ?_⟩
      cases email with
      | none => simp [invitesSelected, is, other] at selected
      | some address =>
          simp only [isRevokerOnlyRecord, is, decide_eq_true_eq] at isOnly
          simp only [invitesSelected, is, Option.some.injEq, other, decide_false, Bool.false_or,
            isInviteTo, decide_eq_true_eq] at selected
          exact ⟨address, rfl, selected, isOnly⟩
    rw [h.same, ← revoker]
  · rw [h.same]
    simp only [subjectInviteRecord, h.revokedBy.masked]

theorem ArtifactRow.Twin.record {a b : ArtifactRow} (h : a.Twin S b)
    (selected : artifactSelected S a = true) (hides : ¬a.reveals S) :
    artifactRecord S a = artifactRecord S b := by
  unfold artifactRecord
  rw [← h.actorOnly]
  split
  · rw [h.same]
    simp only [actorReferenceRecord, h.requestedBy.filter, h.generatedBy.filter]
  · rename_i notOnly
    have ready : a.status = .ready := by
      simp only [artifactSelected, Bool.and_eq_true, decide_eq_true_eq] at selected
      exact selected.1
    have own : a.subjectUserId = some S ∨ a.requesterUserId = some S := by
      by_contra neither
      rw [not_or] at neither
      simp [isActorOnlyRecord, neither.1, neither.2] at notOnly
      simp [artifactSelected, neither.1, neither.2, notOnly] at selected
    have known : ∀ u, a.subjectUserId = some u ∨ a.requesterUserId = some u → u = S := by
      intro u is
      by_contra other
      exact hides ⟨ready, own, u, other, is⟩
    have subject := h.subject.eq fun u is => known u (.inl is)
    have requester := h.requester.eq fun u is => known u (.inr is)
    rw [h.same]
    simp only [subjectArtifactRecord, h.requestedBy.masked, h.generatedBy.masked, subject, requester]

theorem AuditRow.Twin.record {a b : AuditRow} (h : a.Twin S b) (hides : ¬a.reveals S) :
    auditRecord S a = auditRecord S b := by
  have target : a.targetId = b.targetId := by
    rcases h.target with same | ⟨actor, kind, same⟩
    · exact same
    · apply same.eq
      intro u is
      by_contra other
      exact hides ⟨actor, kind, u, other, is⟩
  have actor := h.actor.iff
  have some_ := h.actor.isSome
  rw [h.same, ← target]
  unfold auditRecord
  by_cases mine : a.actorUserId = some S
  · simp [mine, actor.mp mine]
  · simp [mine, mt actor.mpr mine, some_]

theorem Twins.getSubjectUser (h : Twins S db db') : getSubjectUser S db' = getSubjectUser S db := by
  rw [h.same]
  rfl

theorem Twins.getSubjectEmail (h : Twins S db db') :
    getSubjectEmail text S db' = getSubjectEmail text S db := by
  rw [h.same]
  rfl

theorem Twins.auditTargetSelected (h : Twins S db db') (targetType : AuditTargetType) (target : Uuid) :
    auditTargetSelected text S db targetType target =
      auditTargetSelected text S db' targetType target := by
  have memberships : db'.memberships = db.memberships := by rw [h.same]
  have invites : ∀ a b : InviteRow, a.Twin S b →
      (isSubjectInvite text S db a && decide (a.id = target)) =
        (isSubjectInvite text S db' b && decide (b.id = target)) := by
    intro a b twin
    rw [twin.same]
    simp only [isSubjectInvite, h.getSubjectUser]
  have requests : ∀ a b : RequestRow, a.Twin S b →
      (isAuditTargetRequest S a && decide (a.id = target)) =
        (isAuditTargetRequest S b && decide (b.id = target)) := by
    intro a b twin
    have id : a.id = b.id := by rw [twin.same]
    simp [isAuditTargetRequest, twin.subject.iff, twin.requester.iff, twin.verifiedBy.iff, id]
  have artifacts : ∀ a b : ArtifactRow, a.Twin S b →
      (decide (a.status = .ready) && (decide (a.subjectUserId = some S) ||
          decide (a.requesterUserId = some S)) && decide (a.id = target)) =
        (decide (b.status = .ready) && (decide (b.subjectUserId = some S) ||
          decide (b.requesterUserId = some S)) && decide (b.id = target)) := by
    intro a b twin
    have id : a.id = b.id := by rw [twin.same]
    have status : a.status = b.status := by rw [twin.same]
    simp [twin.subject.iff, twin.requester.iff, id, status]
  have staff : ∀ a b : PlatformStaffRow, a.Twin S b →
      (decide (a.userId = S) && decide (a.id = target)) =
        (decide (b.userId = S) && decide (b.id = target)) := by
    intro a b twin
    have id : a.id = b.id := by rw [twin.same]
    simp [twin.isUser, id]
  unfold SubjectData.auditTargetSelected
  split
  · rfl
  · rfl
  · rfl
  · exact any_twins h.invites invites
  · rw [memberships]
  · exact any_twins h.dataSubjectRequests requests
  · exact any_twins h.exportArtifacts artifacts
  · exact any_twins h.platformStaff staff
  · rfl

theorem AuditRow.Twin.selected {a b : AuditRow} (twin : a.Twin S b) (h : Twins S db db') :
    auditSelected text S db a = auditSelected text S db' b := by
  have actor := twin.actor.iff
  have kind : a.targetType = b.targetType := by rw [twin.same]
  rcases twin.target with same | ⟨mine, -, -⟩
  · simp only [auditSelected, actor, same, kind, h.auditTargetSelected]
  · simp [auditSelected, mine, actor.mp mine]

end SubjectData
end Privacy
end SaasTemplate
