import SaasTemplate.Privacy.SubmissionRuns
import SaasTemplate.Text.Separators

/-! # What a fingerprint tells apart

A fingerprint is the digest of one text in which the fields of the payload follow each other
with their names. A field may have the name of a later one in it, and then two payloads have
one text: the later payload has as its note, or as its relationship, what is in the earlier one
that field and the ones after it.
-/

namespace SaasTemplate.Privacy

open SaasTemplate.Isolation SaasTemplate.Isolation.Prog
open SaasTemplate.Text (Lone separator_cases separator_eq ne_append_of_ne_empty)

/-! ## Normalised payloads -/

/-- A payload after the intake; an absent text is an empty one. -/
structure NormalisedPayload where
  requestType : DataSubjectRequestType
  requesterNote : String
  subjectUserId : Uuid
  requesterRole : RequesterRole
  representativeRelationship : String
  representativeAuthorityNote : String
  deriving DecidableEq, Repr

/-- The payload of a submission that passes the intake. -/
def Submission.normalised (ops : SubmissionOps) (s : Submission) : Option NormalisedPayload :=
  match representativeIntakeValues (s.intake ops) with
  | .error _ => none
  | .ok (subject, role, _) => some {
      requestType := s.payload.requestType
      requesterNote := s.payload.requesterNote.getD ""
      subjectUserId := subject
      requesterRole := role
      representativeRelationship := (s.intake ops).representativeRelationship.getD ""
      representativeAuthorityNote := (s.intake ops).representativeAuthorityNote.getD "" }

namespace NormalisedPayload

variable (ops : SubmissionOps)

/-- The relationship and what follows it. -/
def fromRelationship (p : NormalisedPayload) : String :=
  p.representativeRelationship ++ "|representative_authority_note=" ++
    p.representativeAuthorityNote

/-- What follows the note and the name of the next field. -/
def fromSubject (p : NormalisedPayload) : String :=
  ops.uuidText p.subjectUserId ++ "|requester_role=" ++ (requesterRoleText p.requesterRole ++
    "|representative_relationship=" ++ p.fromRelationship)

/-- The note and what follows it. -/
def fromNote (p : NormalisedPayload) : String :=
  p.requesterNote ++ "|subject_user_id=" ++ p.fromSubject ops

/-- The text of `_build_fingerprint`. -/
def fingerprintText (p : NormalisedPayload) : String :=
  "request_type=" ++ (requestTypeText p.requestType ++ "|requester_note=" ++ p.fromNote ops)

/-- The text of `_build_pre_representative_fingerprint`. -/
def preRepresentativeText (p : NormalisedPayload) : String :=
  "request_type=" ++ (requestTypeText p.requestType ++ "|requester_note=" ++ p.requesterNote)

/-- The note of `later` has in it the note of `p`, and the fields that follow that end with the
    ones that follow the note of `later`. -/
def NoteOverruns (p later : NormalisedPayload) : Prop :=
  p.requestType = later.requestType ∧
    ∃ w, later.requesterNote = p.requesterNote ++ "|subject_user_id=" ++ w ∧
      p.fromSubject ops = w ++ "|subject_user_id=" ++ later.fromSubject ops

/-- The relationship of `later` has in it the one of `p` and the start of its authority note. -/
def RelationshipOverruns (p later : NormalisedPayload) : Prop :=
  p.requestType = later.requestType ∧ p.requesterNote = later.requesterNote ∧
    p.subjectUserId = later.subjectUserId ∧ p.requesterRole = later.requesterRole ∧
    ∃ w, later.representativeRelationship =
        p.representativeRelationship ++ "|representative_authority_note=" ++ w ∧
      p.representativeAuthorityNote =
        w ++ "|representative_authority_note=" ++ later.representativeAuthorityNote

/-- Two requests of a user for itself, and the note of `later` has in it the whole of `p`. -/
def SelfOverruns (p later : NormalisedPayload) : Prop :=
  p.requestType = later.requestType ∧ p.requesterRole = .self ∧ later.requesterRole = .self ∧
    later.requesterNote = p.fromNote ops

/-- The ways in which a later payload is taken for an earlier one. -/
def TakenFor (later first : NormalisedPayload) : Prop :=
  first.NoteOverruns ops later ∨ later.NoteOverruns ops first ∨
    first.RelationshipOverruns later ∨ later.RelationshipOverruns first ∨
    first.SelfOverruns ops later

end NormalisedPayload

/-! ## Texts -/

theorem lone_subject : Lone "|subject_user_id=" := ⟨_, _, rfl, by decide⟩

theorem lone_note : Lone "|requester_note=" := ⟨_, _, rfl, by decide⟩

theorem lone_role : Lone "|requester_role=" := ⟨_, _, rfl, by decide⟩

theorem lone_relationship : Lone "|representative_relationship=" := ⟨_, _, rfl, by decide⟩

theorem lone_authority : Lone "|representative_authority_note=" := ⟨_, _, rfl, by decide⟩

theorem requestTypeText_fresh (type : DataSubjectRequestType) :
    '|' ∉ (requestTypeText type).toList := by
  cases type <;> decide

theorem requestTypeText_injective {type type' : DataSubjectRequestType}
    (same : requestTypeText type = requestTypeText type') : type = type' := by
  revert same
  cases type <;> cases type' <;> decide

theorem requesterRoleText_fresh (role : RequesterRole) : '|' ∉ (requesterRoleText role).toList := by
  cases role <;> decide

theorem requesterRoleText_injective {role role' : RequesterRole}
    (same : requesterRoleText role = requesterRoleText role') : role = role' := by
  revert same
  cases role <;> cases role' <;> decide

namespace NormalisedPayload

variable {ops : SubmissionOps} {p q : NormalisedPayload}

/-- What is after a fixed start and a type is known with the type. -/
theorem type_cases {rest rest' : String} (same :
      "request_type=" ++ (requestTypeText p.requestType ++ "|requester_note=" ++ rest) =
        "request_type=" ++ (requestTypeText q.requestType ++ "|requester_note=" ++ rest')) :
    p.requestType = q.requestType ∧ rest = rest' := by
  have tail := String.append_right_inj _ |>.mp same
  obtain ⟨type, rest⟩ := separator_eq lone_note rfl (requestTypeText_fresh _)
    (requestTypeText_fresh _) tail
  exact ⟨requestTypeText_injective type, rest⟩

theorem fromRelationship_cases (same : p.fromRelationship = q.fromRelationship)
    (type : p.requestType = q.requestType) (note : p.requesterNote = q.requesterNote)
    (subject : p.subjectUserId = q.subjectUserId) (role : p.requesterRole = q.requesterRole) :
    p = q ∨ p.RelationshipOverruns q ∨ q.RelationshipOverruns p := by
  rcases separator_cases lone_authority same with ⟨relationship, authority⟩ | further | further
  · left
    cases p
    cases q
    simp_all
  · exact .inr (.inl ⟨type, note, subject, role, further⟩)
  · exact .inr (.inr ⟨type.symm, note.symm, subject.symm, role.symm, further⟩)

/-- The texts of ids: two ids have two texts, and the separator is not in them. -/
def IdTexts (ops : SubmissionOps) (ids : List Uuid) : Prop :=
  ∀ id ∈ ids, '|' ∉ (ops.uuidText id).toList ∧
    ∀ id' ∈ ids, ops.uuidText id = ops.uuidText id' → id = id'

theorem fromSubject_cases (ids : IdTexts ops [p.subjectUserId, q.subjectUserId])
    (same : p.fromSubject ops = q.fromSubject ops) :
    p.subjectUserId = q.subjectUserId ∧ p.requesterRole = q.requesterRole ∧
      p.fromRelationship = q.fromRelationship := by
  obtain ⟨plain, injective⟩ := ids p.subjectUserId (by simp)
  obtain ⟨plain', -⟩ := ids q.subjectUserId (by simp)
  obtain ⟨subject, rest⟩ := separator_eq lone_role rfl plain plain' same
  obtain ⟨role, rest⟩ := separator_eq lone_relationship rfl (requesterRoleText_fresh _)
    (requesterRoleText_fresh _) rest
  exact ⟨injective _ (by simp) subject, requesterRoleText_injective role, rest⟩

/-- Two payloads with one text are the same, or a field of the one overruns into the other. -/
theorem fingerprintText_cases (ids : IdTexts ops [p.subjectUserId, q.subjectUserId])
    (same : p.fingerprintText ops = q.fingerprintText ops) :
    p = q ∨ p.NoteOverruns ops q ∨ q.NoteOverruns ops p ∨ p.RelationshipOverruns q ∨
      q.RelationshipOverruns p := by
  obtain ⟨type, rest⟩ := type_cases same
  rcases separator_cases lone_subject rest with ⟨note, rest⟩ | further | further
  · obtain ⟨subject, role, rest⟩ := fromSubject_cases ids rest
    rcases fromRelationship_cases rest type note subject role with is | overruns | overruns
    · exact .inl is
    · exact .inr (.inr (.inr (.inl overruns)))
    · exact .inr (.inr (.inr (.inr overruns)))
  · exact .inr (.inl ⟨type, further⟩)
  · exact .inr (.inr (.inl ⟨type.symm, further⟩))

theorem NoteOverruns.text (h : p.NoteOverruns ops q) :
    p.fingerprintText ops = q.fingerprintText ops := by
  obtain ⟨type, w, note, rest⟩ := h
  simp only [fingerprintText, fromNote, type, note, rest, String.append_assoc]

theorem RelationshipOverruns.text (h : p.RelationshipOverruns q) :
    p.fingerprintText ops = q.fingerprintText ops := by
  obtain ⟨type, note, subject, role, w, relationship, authority⟩ := h
  simp only [fingerprintText, fromNote, fromSubject, fromRelationship, type, note, subject, role,
    relationship, authority, String.append_assoc]

theorem SelfOverruns.text (h : p.SelfOverruns ops q) :
    p.fingerprintText ops = q.preRepresentativeText := by
  obtain ⟨type, -, -, note⟩ := h
  simp only [fingerprintText, preRepresentativeText, type, note]

/-- Two requests for oneself, one of which has the older text of the other. -/
theorem selfOverruns_iff : p.SelfOverruns ops q ↔
    (q.requesterRole = .self ∧ p.fingerprintText ops = q.preRepresentativeText) ∧
      p.requesterRole = .self := by
  constructor
  · intro h
    exact ⟨⟨h.2.2.1, h.text⟩, h.2.1⟩
  · rintro ⟨⟨later, same⟩, self⟩
    obtain ⟨type, note⟩ := type_cases same
    exact ⟨type, self, later, note.symm⟩

/-- One text for two payloads never has the same fields in both. -/
theorem TakenFor.ne (h : q.TakenFor ops p) : p ≠ q := by
  rintro rfl
  have longer : ∀ x s w : String, s ≠ "" → x ≠ x ++ s ++ w := by
    intro x s w proper
    rw [String.append_assoc]
    exact ne_append_of_ne_empty (by simp [proper])
  rcases h with ⟨-, w, note, -⟩ | ⟨-, w, note, -⟩ | ⟨-, -, -, -, w, relationship, -⟩ |
    ⟨-, -, -, -, w, relationship, -⟩ | ⟨-, -, -, note⟩
  · exact longer _ _ _ (by decide) note
  · exact longer _ _ _ (by decide) note
  · exact longer _ _ _ (by decide) relationship
  · exact longer _ _ _ (by decide) relationship
  · exact longer _ _ _ (by decide) note

end NormalisedPayload

/-! ## Replays -/

/-- A submission that passes every check before its key is looked up. -/
structure Submission.Admitted (ops : SubmissionOps) (s : Submission) (p : NormalisedPayload) :
    Prop where
  normalised : s.normalised ops = some p
  note : ¬s.payload.requesterNote.any (·.length > 2000)
  key : (s.normalisedKey ops).bind ops.unsafeKey = none
  subject : p.requesterRole = .authorisedRepresentative → s.subjectExists = true

/-- The request that a submission has made, as far as a replay reads it. -/
structure DataSubjectRequest.SubmittedAs (ops : SubmissionOps) (s : Submission)
    (p : NormalisedPayload) (r : DataSubjectRequest) : Prop where
  fingerprint : r.idempotencyFingerprint = (s.call ops).idempotencyFingerprint
  requester : r.requesterUserId = some s.requesterUserId
  subject : r.subjectUserId = some p.subjectUserId
  role : r.requesterRole = p.requesterRole
  relationship : r.representativeRelationship = (s.call ops).representativeRelationship
  authorityNote : r.representativeAuthorityNote = (s.call ops).representativeAuthorityNote

section
variable {ops : SubmissionOps} {s : Submission} {p : NormalisedPayload} {hash : String}

theorem joined_fingerprintText (ops : SubmissionOps) (p : NormalisedPayload) :
    p.fingerprintText ops = "|".intercalate [
      "request_type=" ++ requestTypeText p.requestType,
      "requester_note=" ++ p.requesterNote,
      "subject_user_id=" ++ ops.uuidText p.subjectUserId,
      "requester_role=" ++ requesterRoleText p.requesterRole,
      "representative_relationship=" ++ p.representativeRelationship,
      "representative_authority_note=" ++ p.representativeAuthorityNote] := by
  have note : "|requester_note=" = "|" ++ "requester_note=" := rfl
  have subject : "|subject_user_id=" = "|" ++ "subject_user_id=" := rfl
  have role : "|requester_role=" = "|" ++ "requester_role=" := rfl
  have relationship : "|representative_relationship=" =
    "|" ++ "representative_relationship=" := rfl
  have authority : "|representative_authority_note=" =
    "|" ++ "representative_authority_note=" := rfl
  have joined : ∀ a b c d e f : String, "|".intercalate [a, b, c, d, e, f] =
    a ++ "|" ++ b ++ "|" ++ c ++ "|" ++ d ++ "|" ++ e ++ "|" ++ f := fun _ _ _ _ _ _ => rfl
  simp only [NormalisedPayload.fingerprintText, NormalisedPayload.fromNote,
    NormalisedPayload.fromSubject, NormalisedPayload.fromRelationship, joined, note, subject, role,
    relationship, authority, String.append_assoc]

theorem joined_preRepresentativeText (p : NormalisedPayload) :
    p.preRepresentativeText =
      "request_type=" ++ requestTypeText p.requestType ++ "|requester_note=" ++
        p.requesterNote := by
  simp only [NormalisedPayload.preRepresentativeText, String.append_assoc]

theorem intake_of_normalised (normalised : s.normalised ops = some p) :
    ∃ status, representativeIntakeValues (s.intake ops) =
        .ok (p.subjectUserId, p.requesterRole, status) ∧
      p.requestType = (s.intake ops).requestType ∧
      p.requesterNote = (s.intake ops).requesterNote.getD "" ∧
      p.representativeRelationship = (s.intake ops).representativeRelationship.getD "" ∧
      p.representativeAuthorityNote = (s.intake ops).representativeAuthorityNote.getD "" := by
  unfold Submission.normalised at normalised
  split at normalised
  · cases normalised
  · rename_i subject role status accepted
    cases normalised
    exact ⟨status, accepted, rfl, rfl, rfl, rfl⟩

theorem call_of_normalised (normalised : s.normalised ops = some p)
    (keyed : s.idempotencyKeyHash ops = some hash) :
    s.call ops = { s.intake ops with
      idempotencyFingerprint := some (ops.sha256 (p.fingerprintText ops))
      legacyFingerprint := if p.requesterRole = .self then
        some (ops.sha256 p.preRepresentativeText) else none } := by
  obtain ⟨status, accepted, type, note, relationship, authority⟩ :=
    intake_of_normalised normalised
  have print := joined_fingerprintText ops p
  have legacy := joined_preRepresentativeText p
  rw [type, note, relationship, authority] at print
  rw [type, note] at legacy
  simp only [Submission.call, accepted, keyed, Submission.fingerprints, buildFingerprint,
    buildPreRepresentativeFingerprint]
  rw [← print, ← legacy]

/-- A user's request for itself has neither relationship nor authority note. -/
theorem self_of_accepted {call : SubmitCall} {subject : Uuid} {status : RepresentativeStatus}
    (accepted : representativeIntakeValues call = .ok (subject, .self, status)) :
    subject = call.requesterUserId ∧ call.representativeRelationship = none ∧
      call.representativeAuthorityNote = none := by
  unfold representativeIntakeValues at accepted
  split at accepted
  · split at accepted
    · cases accepted
    · split at accepted
      · cases accepted
      · rename_i relationship
        split at accepted
        · cases accepted
        · rename_i note
          cases accepted
          exact ⟨rfl, by simpa using relationship, by simpa using note⟩
  · split at accepted
    · cases accepted
    · split at accepted
      · cases accepted
      · split at accepted
        · cases accepted
        · cases accepted
        · split at accepted
          · cases accepted
          · split at accepted
            · cases accepted
            · cases accepted

variable {first second : Submission} {q : NormalisedPayload} {r : DataSubjectRequest}

/-- The text of the first fingerprint has its digest in common with no other one here. -/
def CollisionFree (ops : SubmissionOps) (first second : NormalisedPayload) : Prop :=
  ∀ text ∈ [second.fingerprintText ops, second.preRepresentativeText],
    ops.sha256 (first.fingerprintText ops) = ops.sha256 text → first.fingerprintText ops = text

/-- The row of a request for oneself is one that an old fingerprint may stand in. -/
theorem SubmittedAs.legacy_iff (stored : r.SubmittedAs ops first p)
    (earlier : first.normalised ops = some p) (keyed : first.idempotencyKeyHash ops = some hash) :
    (r.requesterRole == .self && r.subjectUserId == r.requesterUserId &&
      r.representativeRelationship.isNone && r.representativeAuthorityNote.isNone) = true ↔
        p.requesterRole = .self := by
  rw [stored.role, stored.subject, stored.requester, stored.relationship, stored.authorityNote,
    call_of_normalised earlier keyed]
  constructor
  · intro legacy
    simp only [Bool.and_eq_true, beq_iff_eq] at legacy
    exact legacy.1.1.1
  · intro self
    obtain ⟨status, accepted, -⟩ := intake_of_normalised earlier
    rw [self] at accepted
    obtain ⟨subject, relationship, note⟩ := self_of_accepted accepted
    dsimp only
    rw [self, subject, relationship, note]
    simp [Submission.intake]

/-- The fingerprints match if the payloads are the same or are taken for each other. -/
theorem matchesFingerprint_iff
    (ids : NormalisedPayload.IdTexts ops [p.subjectUserId, q.subjectUserId])
    (collisionFree : CollisionFree ops p q)
    (earlier : first.normalised ops = some p) (later : second.normalised ops = some q)
    (earlierKey : first.idempotencyKeyHash ops = some hash)
    (laterKey : second.idempotencyKeyHash ops = some hash) (stored : r.SubmittedAs ops first p) :
    (second.call ops).matchesFingerprint r = true ↔ p = q ∨ q.TakenFor ops p := by
  have print : r.idempotencyFingerprint = some (ops.sha256 (p.fingerprintText ops)) := by
    rw [stored.fingerprint, call_of_normalised earlier earlierKey]
  have current : r.idempotencyFingerprint = (second.call ops).idempotencyFingerprint ↔
      p.fingerprintText ops = q.fingerprintText ops := by
    rw [print, call_of_normalised later laterKey]
    simp only [Option.some.injEq]
    exact ⟨collisionFree _ (by simp), congrArg _⟩
  have old : ((second.call ops).legacyFingerprint.isSome = true ∧
      r.idempotencyFingerprint = (second.call ops).legacyFingerprint) ↔
        q.requesterRole = .self ∧ p.fingerprintText ops = q.preRepresentativeText := by
    rw [print, call_of_normalised later laterKey]
    dsimp only
    split
    · rename_i self
      simp only [Option.isSome_some, true_and, Option.some.injEq, self]
      exact ⟨collisionFree _ (by simp), congrArg _⟩
    · rename_i representative
      simp [representative]
  have matched : (second.call ops).matchesFingerprint r = true ↔
      p.fingerprintText ops = q.fingerprintText ops ∨ p.SelfOverruns ops q := by
    rw [NormalisedPayload.selfOverruns_iff, ← current, ← old,
      ← SubmittedAs.legacy_iff stored earlier earlierKey]
    simp only [SubmitCall.matchesFingerprint, Bool.or_eq_true, Bool.and_eq_true, beq_iff_eq,
      and_assoc]
  rw [matched]
  constructor
  · rintro (same | self)
    · rcases NormalisedPayload.fingerprintText_cases ids same with
        is | after | before | after | before
      · exact .inl is
      · exact .inr (.inl after)
      · exact .inr (.inr (.inl before))
      · exact .inr (.inr (.inr (.inl after)))
      · exact .inr (.inr (.inr (.inr (.inl before))))
    · exact .inr (.inr (.inr (.inr (.inr self))))
  · rintro (rfl | after | before | after | before | self)
    · exact .inl rfl
    · exact .inl after.text
    · exact .inl before.text.symm
    · exact .inl after.text
    · exact .inl before.text.symm
    · exact .inr self

/-! ## The answer to a replay -/

variable {τ : Type} [DecidableEq τ] {t : τ} {db db' : UsersDb τ} {now : Time} {k : Uuid}
variable {answer : Except AppError (Option (Uuid × DataSubjectRequest))}

/-- What the second submission is to answer. -/
def AnswersByPayload (first second : NormalisedPayload) (found : Uuid × DataSubjectRequest)
    (answer : Except AppError (Option (Uuid × DataSubjectRequest))) : Prop :=
  (first = second → answer = .ok (some found)) ∧ (first ≠ second → answer = .error keyConflict)

/-- The lock on a requester, where no other transaction takes part. -/
theorem solo_lockRequester (requester : Uuid) :
    (usersMachine τ).solo t (sql (.lockRequester requester)) db =
      (db.users.lockRow t requester fun _ => true).map fun out =>
        (.ok (), { db with users := out.2 }) := by
  cases locked : db.users.lockRow t requester fun _ => true with
  | none =>
      have blocked : execUsers t (.lockRequester requester) db = none := by
        simp only [execUsers, locked, Option.map_none]
      simp only [sql, Prog.stmt, Machine.solo]
      rw [show (usersMachine τ).exec t (.lockRequester requester) db = none from blocked]
      rfl
  | some out =>
      apply Machine.solo_stmt
      simp only [usersMachine, execUsers, locked, Option.map_some]

/-- The lookup of a key does not depend on the users. -/
theorem requestByIdempotencyKey_users {requester : Uuid}
    (found : execUsers t (.requestByIdempotencyKey requester hash now) db =
      some (.ok (some (k, r)), db)) (users : Table Uuid τ Unit) :
    execUsers t (.requestByIdempotencyKey requester hash now) { db with users } =
      some (.ok (some (k, r)), { db with users }) := by
  simp only [execUsers] at found ⊢
  obtain ⟨⟨seen, privacy⟩, executed, is⟩ := Option.map_eq_some_iff.mp found
  obtain ⟨rfl, same⟩ := Prod.mk.inj is
  have kept : privacy = db.privacy := congrArg UsersDb.privacy same
  exact Option.map_eq_some_iff.mpr ⟨_, executed, by rw [kept]⟩

/-- A submission whose key stands for a request ends with that request or with a conflict, once
    it has the lock on its requester. -/
theorem submitAt_replay (admitted : second.Admitted ops q)
    (keyed : second.idempotencyKeyHash ops = some hash)
    (found : execUsers t (.requestByIdempotencyKey second.requesterUserId hash now) db =
      some (.ok (some (k, r)), db)) :
    (usersMachine τ).solo t (submitAt (second.call ops) now) db =
      (db.users.lockRow t second.requesterUserId fun _ => true).map fun out =>
        (if (second.call ops).matchesFingerprint r then .ok (some (k, r)) else .error keyConflict,
          { db with users := out.2 }) := by
  have requester : second.requesterUserId = (second.call ops).requesterUserId :=
    second.call_fields.1.symm
  rw [requester] at found ⊢
  obtain ⟨status, accepted, -⟩ := intake_of_normalised admitted.normalised
  have call := call_of_normalised admitted.normalised keyed
  have values : representativeIntakeValues (second.call ops) =
      .ok (q.subjectUserId, q.requesterRole, status) := by
    rw [call]
    exact accepted
  have key : (second.call ops).unsafeKey = none := by
    rw [second.call_fields.2.2, admitted.key]
    rfl
  have note : ¬(second.call ops).requesterNote.any (·.length > 2000) = true := by
    rw [call]
    exact admitted.note
  have subject : ¬(q.requesterRole = .authorisedRepresentative ∧
      (second.call ops).subjectExists = false) := by
    rw [call]
    rintro ⟨role, missing⟩
    exact Bool.false_ne_true (missing.symm.trans (admitted.subject role))
  have hashed : (second.call ops).idempotencyKeyHash = some hash :=
    second.call_fields.2.1.trans keyed
  unfold submitAt
  rw [Machine.solo_bind_ok (Machine.solo_raiseIf_passed note)]
  simp only [key, values]
  rw [Machine.solo_bind_ok (Machine.solo_raiseIf_passed subject)]
  simp only [standingSubmission, hashed, Prog.bind_assoc]
  rw [Machine.solo_bind, solo_lockRequester]
  cases db.users.lockRow t (second.call ops).requesterUserId fun _ => true with
  | none => rfl
  | some out =>
      simp only [Option.map_some, Option.bind_some]
      rw [Machine.solo_bind_ok (Machine.solo_stmt (requestByIdempotencyKey_users found out.2))]
      dsimp only
      split
      · rfl
      · rfl

/-- The second submission with a live key is answered by its payload just if it is not taken for
    the first. -/
theorem replay_answers_by_payload_iff
    (ids : NormalisedPayload.IdTexts ops [p.subjectUserId, q.subjectUserId])
    (collisionFree : CollisionFree ops p q)
    (earlier : first.Admitted ops p) (later : second.Admitted ops q)
    (earlierKey : first.idempotencyKeyHash ops = some hash)
    (laterKey : second.idempotencyKeyHash ops = some hash) (stored : r.SubmittedAs ops first p)
    (found : execUsers t (.requestByIdempotencyKey second.requesterUserId hash now) db =
      some (.ok (some (k, r)), db))
    (ends : (usersMachine τ).solo t (submitAt (second.call ops) now) db = some (answer, db')) :
    AnswersByPayload p q (k, r) answer ↔ ¬q.TakenFor ops p := by
  rw [submitAt_replay later laterKey found] at ends
  obtain ⟨out, -, is⟩ := Option.map_eq_some_iff.mp ends
  have answered : answer = if (second.call ops).matchesFingerprint r then .ok (some (k, r))
      else .error keyConflict := (Prod.mk.inj is).1.symm
  have matched := matchesFingerprint_iff ids collisionFree earlier.normalised
    later.normalised earlierKey laterKey stored
  constructor
  · intro fair taken
    have conflict := fair.2 taken.ne
    rw [answered, if_pos (matched.mpr (.inr taken))] at conflict
    cases conflict
  · intro clear
    constructor
    · intro same
      rw [answered, if_pos (matched.mpr (.inl same))]
    · intro differs
      have unmatched : ¬(second.call ops).matchesFingerprint r = true := by
        rw [matched]
        rintro (same | taken)
        · exact differs same
        · exact clear taken
      rw [answered, if_neg unmatched]

end

/-! ## Two payloads, one request -/

def replayText : String :=
  "request_type=access|requester_note=" ++
    "|subject_user_id=00000000-0000-0000-0000-000000000008" ++
    "|requester_role=authorised_representative|representative_relationship=carer" ++
    "|representative_authority_note=order|representative_authority_note=file"

/-- The digests of a key and of a text. -/
def replayOps : SubmissionOps where
  toTextOps := { plainText with
    sha256 := fun text =>
      if text = "first attempt" then
        "e28dc1711113db3c923d5fe79362c8ded50fc4056e06742807f882d75d095a43"
      else if text = replayText then
        "a3563fe57ebb8c90ab0878889427e39c5b4e6eac8392568635e83bb7b8ab9801"
      else "no digest of " ++ text }
  uuidText id := if id = 8 then "00000000-0000-0000-0000-000000000008" else "no text of another id"
  unsafeKey _ := none

/-- User 7 asks for the data of user 8. -/
def replaySubmission (newRequestId : Uuid) (relationship authorityNote : String) (now : Time) :
    Submission where
  newRequestId
  requesterUserId := 7
  payload := ⟨.access, none, some 8, .authorisedRepresentative, some relationship,
    some authorityNote⟩
  idempotencyKey := some "first attempt"
  subjectExists := true
  now

def replayFirst : Submission :=
  replaySubmission 1 "carer" "order|representative_authority_note=file" 100

def replaySecond : Submission :=
  replaySubmission 2 "carer|representative_authority_note=order" "file" 200

def replayPayload (relationship authorityNote : String) : NormalisedPayload :=
  ⟨.access, "", 8, .authorisedRepresentative, relationship, authorityNote⟩

def replayRow : DataSubjectRequest :=
  (replayFirst.call replayOps).request 8 .authorisedRepresentative .pendingVerification 100 100

def replayDb : UsersDb Bool :=
  ⟨⟨.ofRows [(1, replayRow)], .ofRows [], .ofRows [], fun _ => none, 200⟩, .ofRows [(7, ())]⟩

theorem replayFirst_admitted : replayFirst.Admitted replayOps
    (replayPayload "carer" "order|representative_authority_note=file") :=
  ⟨by rfl, by decide, rfl, fun _ => rfl⟩

theorem replaySecond_admitted : replaySecond.Admitted replayOps
    (replayPayload "carer|representative_authority_note=order" "file") :=
  ⟨by rfl, by decide, rfl, fun _ => rfl⟩

theorem replaySecond_taken :
    (replayPayload "carer|representative_authority_note=order" "file").TakenFor replayOps
      (replayPayload "carer" "order|representative_authority_note=file") :=
  .inr (.inr (.inl ⟨rfl, rfl, rfl, rfl, "order", rfl, rfl⟩))

theorem replay_ids : NormalisedPayload.IdTexts replayOps [8, 8] := by
  simp only [NormalisedPayload.IdTexts, List.mem_cons, List.not_mem_nil, or_false, or_self,
    forall_eq, implies_true, and_true]
  decide

set_option maxRecDepth 4000 in
theorem replay_collisionFree : CollisionFree replayOps
    (replayPayload "carer" "order|representative_authority_note=file")
    (replayPayload "carer|representative_authority_note=order" "file") := by
  intro text member same
  rcases List.mem_cons.mp member with rfl | old
  · rfl
  · rw [List.mem_singleton.mp old] at same
    exact absurd same (by decide)

theorem replayRow_submitted : replayRow.SubmittedAs replayOps replayFirst
    (replayPayload "carer" "order|representative_authority_note=file") :=
  ⟨rfl, rfl, rfl, rfl, rfl, rfl⟩

def replayHash : String := "e28dc1711113db3c923d5fe79362c8ded50fc4056e06742807f882d75d095a43"

theorem replay_found :
    execUsers true (.requestByIdempotencyKey 7 replayHash 200) replayDb =
      some (.ok (some (1, replayRow)), replayDb) := by
  rfl

theorem replayed :
    ∃ db', (usersMachine Bool).solo true (submitAt (replaySecond.call replayOps) 200) replayDb =
      some (.ok (some (1, replayRow)), db') := by
  have matched : (replaySecond.call replayOps).matchesFingerprint replayRow = true :=
    (matchesFingerprint_iff replay_ids replay_collisionFree replayFirst_admitted.normalised
      replaySecond_admitted.normalised (show _ = some replayHash from rfl) rfl
        replayRow_submitted).mpr (.inr replaySecond_taken)
  rw [submitAt_replay replaySecond_admitted (show _ = some replayHash from rfl) replay_found,
    if_pos matched]
  exact ⟨_, rfl⟩

/-- The second payload differs from the first, and is answered with the request of the first. -/
theorem other_payload_answered_with_first :
    ∃ p q db', replayFirst.Admitted replayOps p ∧ replaySecond.Admitted replayOps q ∧ p ≠ q ∧
      (usersMachine Bool).solo true (submitAt (replaySecond.call replayOps) 200) replayDb =
        some (.ok (some (1, replayRow)), db') := by
  obtain ⟨db', ends⟩ := replayed
  exact ⟨_, _, db', replayFirst_admitted, replaySecond_admitted, by decide, ends⟩

theorem replay_answers_by_payload_example :
    AnswersByPayload (replayPayload "carer" "order|representative_authority_note=file")
        (replayPayload "carer|representative_authority_note=order" "file") (1, replayRow)
        (.ok (some (1, replayRow))) ↔
      ¬(replayPayload "carer|representative_authority_note=order" "file").TakenFor replayOps
        (replayPayload "carer" "order|representative_authority_note=file") := by
  obtain ⟨db', ends⟩ := replayed
  exact replay_answers_by_payload_iff replay_ids replay_collisionFree replayFirst_admitted
    replaySecond_admitted (show _ = some replayHash from rfl) rfl replayRow_submitted replay_found
    ends

end SaasTemplate.Privacy
