import SaasTemplate.Privacy.RequestServices

/-! # Submitting under the requester's row lock

`submit_request` from the point where it has its clock value, with what it makes of the
key and the payload. Here the row of the requester in `users` is there to be locked: the
`FOR NO KEY UPDATE` of the idempotency check waits for that of another submission, and is
released when the transaction ends. A client whose statement fails is one that is lost.
-/

set_option linter.unusedSectionVars false

namespace SaasTemplate.Privacy

open SaasTemplate.Isolation SaasTemplate.Isolation.Prog

/-! ## Keys and fingerprints -/

/-- What is outside: besides the string functions, the text of an id, and the detail with
    which `_validate_idempotency_key_safety` refuses a key. -/
structure SubmissionOps extends TextOps where
  uuidText : Uuid → String
  unsafeKey : String → Option String

/-- What the requester asks for. -/
structure SubmissionPayload where
  requestType : DataSubjectRequestType
  requesterNote : Option String
  subjectUserId : Option Uuid
  requesterRole : RequesterRole
  representativeRelationship : Option String
  representativeAuthorityNote : Option String
  deriving DecidableEq, Repr

/-- The arguments of `submit_request`, the id that the new row would get, and whether the
    represented subject was found. -/
structure Submission where
  newRequestId : Uuid
  requesterUserId : Uuid
  payload : SubmissionPayload
  idempotencyKey : Option String
  subjectExists : Bool
  now : Time

def requesterRoleText : RequesterRole → String
  | .self => "self"
  | .authorisedRepresentative => "authorised_representative"

/-- `_normalise_optional_text`. -/
def normaliseOptionalText (ops : TextOps) (value : Option String) : Option String :=
  (value.map ops.strip).filter (· ≠ "")

def buildFingerprint (ops : SubmissionOps) (requestType : DataSubjectRequestType)
    (requesterNote : Option String) (subjectUserId : Uuid) (requesterRole : RequesterRole)
    (representativeRelationship representativeAuthorityNote : Option String) : String :=
  ops.sha256 ("|".intercalate [
    "request_type=" ++ requestTypeText requestType,
    "requester_note=" ++ requesterNote.getD "",
    "subject_user_id=" ++ ops.uuidText subjectUserId,
    "requester_role=" ++ requesterRoleText requesterRole,
    "representative_relationship=" ++ representativeRelationship.getD "",
    "representative_authority_note=" ++ representativeAuthorityNote.getD ""])

def buildPreRepresentativeFingerprint (ops : SubmissionOps) (requestType : DataSubjectRequestType)
    (requesterNote : Option String) : String :=
  ops.sha256 ("request_type=" ++ requestTypeText requestType ++ "|requester_note=" ++
    requesterNote.getD "")

namespace Submission

variable (ops : SubmissionOps) (s : Submission)

/-- `_normalise_idempotency_key`. -/
def normalisedKey : Option String := s.idempotencyKey.map ops.strip

def idempotencyKeyHash : Option String := (s.normalisedKey ops).map ops.sha256

/-- The normalised arguments, without fingerprints. -/
def intake : SubmitCall where
  newRequestId := s.newRequestId
  requesterUserId := s.requesterUserId
  requestType := s.payload.requestType
  requesterNote := s.payload.requesterNote
  subjectUserId := s.payload.subjectUserId
  requesterRole := s.payload.requesterRole
  representativeRelationship := normaliseOptionalText ops.toTextOps s.payload.representativeRelationship
  representativeAuthorityNote :=
    normaliseOptionalText ops.toTextOps s.payload.representativeAuthorityNote
  unsafeKey := ((s.normalisedKey ops).bind ops.unsafeKey).map .badRequest
  subjectExists := s.subjectExists
  idempotencyKeyHash := s.idempotencyKeyHash ops
  idempotencyFingerprint := none
  legacyFingerprint := none

/-- The fingerprint of the payload, and the one of the time before representatives, for a
    subject and role that have passed the intake. -/
def fingerprints (subject : Uuid) (role : RequesterRole) : String × Option String :=
  let intake := s.intake ops
  (buildFingerprint ops intake.requestType intake.requesterNote subject role
    intake.representativeRelationship intake.representativeAuthorityNote,
   if role = .self then
     some (buildPreRepresentativeFingerprint ops intake.requestType intake.requesterNote)
   else none)

def call : SubmitCall :=
  let intake := s.intake ops
  match representativeIntakeValues intake, s.idempotencyKeyHash ops with
  | .ok (subject, role, _), some _ =>
      let (fingerprint, legacy) := s.fingerprints ops subject role
      { intake with idempotencyFingerprint := some fingerprint, legacyFingerprint := legacy }
  | _, _ => intake

end Submission

/-! ## The service -/

def keyConflict : AppError :=
  .conflict "Idempotency key is already used for another request payload"

/-- `existingSubmission` with the id of the row. -/
def standingSubmission (call : SubmitCall) (now : Time) : Tx (Option (Uuid × DataSubjectRequest)) :=
  match call.idempotencyKeyHash with
  | none => pure none
  | some hash => do
      sql (.lockRequester call.requesterUserId)
      let existing ← sql (.requestByIdempotencyKey call.requesterUserId hash now)
      match existing with
      | none => pure none
      | some row => if call.matchesFingerprint row.2 then pure (some row) else raise keyConflict

/-- `submitRequest` with clock value `referenceNow`; it returns the row with its id. -/
def submitAt (call : SubmitCall) (referenceNow : Time) : Tx (Option (Uuid × DataSubjectRequest)) := do
  raiseIf (call.requesterNote.any (·.length > 2000))
    (.badRequest "Requester note exceeds maximum length of 2000 characters")
  match call.unsafeKey with
  | some e => raise e
  | none =>
      match representativeIntakeValues call with
      | .error e => raise e
      | .ok (subject, role, representativeStatus) => do
          raiseIf (role = .authorisedRepresentative ∧ call.subjectExists = false)
            (.badRequest "Representative subject user was not found")
          let existing ← standingSubmission call referenceNow
          match existing with
          | some row => pure (some row)
          | none => do
              let createdAt ← sql .now
              sql (.insertRequest call.newRequestId
                (call.request subject role representativeStatus referenceNow createdAt))
              let request ← sql (.requestById call.newRequestId)
              sql .recordAuditEvent
              pure (request.map fun request => (call.newRequestId, request))

theorem existingSubmission_eq (call : SubmitCall) (now : Time) :
    existingSubmission call now =
      (standingSubmission call now >>= fun row => pure (row.map (·.2))) := by
  unfold existingSubmission standingSubmission
  cases call.idempotencyKeyHash with
  | none => rfl
  | some hash =>
      simp only [bind_assoc]
      congr 1
      funext _
      congr 1
      funext existing
      cases existing with
      | none => rfl
      | some row =>
          dsimp only
          split <;> rfl

/-- `submit_request` reads the clock, goes on as `submitAt`, and returns the row. -/
theorem submitRequest_eq (call : SubmitCall) :
    submitRequest call = (sql .now >>= fun referenceNow =>
      submitAt call referenceNow >>= fun row => pure (row.map (·.2))) := by
  unfold submitRequest submitAt
  congr 1
  funext referenceNow
  simp only [bind_assoc]
  congr 1
  funext _
  cases call.unsafeKey with
  | some e => rfl
  | none =>
      cases representativeIntakeValues call with
      | error e => rfl
      | ok values =>
          obtain ⟨subject, role, representativeStatus⟩ := values
          simp only [bind_assoc, existingSubmission_eq]
          congr 1
          funext _
          congr 1
          funext existing
          cases existing with
          | some row => rfl
          | none =>
              simp only [Option.map_none, bind_assoc, pure_bind_eq]
              congr 1
              funext createdAt
              congr 1
              funext _
              congr 1
              funext request
              congr 1
              funext _
              cases request <;> rfl

/-! ## The database with its users -/

/-- The privacy database and the rows of `users`. -/
structure UsersDb (τ : Type) where
  privacy : Db τ
  users : Table Uuid τ Unit

section Exec

variable {τ : Type} [DecidableEq τ] (t : τ)

abbrev UsersEffect (τ α : Type) : Type := Option (Except AppError α × UsersDb τ)

/-- The foreign keys of a request to its requester and its subject. -/
def UsersDb.knows (db : UsersDb τ) (request : DataSubjectRequest) : Bool :=
  request.requesterUserId.all (fun id => (db.users.view t id).isSome) &&
    request.subjectUserId.all fun id => (db.users.view t id).isSome

/-- What each statement does, the locks on users included. -/
def execUsers (s : Statement) (db : UsersDb τ) : UsersEffect τ (Answer s) :=
  match s with
  | .lockRequester id =>
      (db.users.lockRow t id fun _ => true).map fun out => (.ok (), { db with users := out.2 })
  | .insertRequest id request =>
      if db.knows t request then
        (exec t (.insertRequest id request) db.privacy).map fun out =>
          (out.1, { db with privacy := out.2 })
      else some (.error .integrityError, db)
  | .commit => some (.ok (), ⟨db.privacy.commit t, db.users.commit t⟩)
  | .rollback => some (.ok (), ⟨db.privacy.rollback t, db.users.rollback t⟩)
  | s => (exec t s db.privacy).map fun out => (out.1, { db with privacy := out.2 })

end Exec

/-- The privacy database with its users. A client can be lost at any point. -/
def usersMachine (τ : Type) [DecidableEq τ] : Machine τ Statement Answer AppError (UsersDb τ) where
  exec := execUsers
  fallible _ := False
  crash t db := ⟨db.privacy.rollback t, db.users.rollback t⟩
  env db db' := ∃ clock, db' = { db with privacy := { db.privacy with clock } }

/-- The transaction around `submit_request`. -/
def Submission.program (ops : SubmissionOps) (s : Submission) :
    Tx (Option (Uuid × DataSubjectRequest)) :=
  inTransaction (submitAt (s.call ops) s.now)

end SaasTemplate.Privacy
