import SaasTemplate.Basics
import SaasTemplate.Text.Json

/-! # The subject data exporter

`CrossTableSubjectDataExporter` collects the records of its providers in one document. What
a provider yields is an argument here: a list of records, and the exception that ends it
early, if there is one.
-/

namespace SaasTemplate
namespace Privacy

structure ExportContext where
  artifactId : Uuid
  dataSubjectRequestId : Uuid
  subjectUserId : Option Uuid
  requesterUserId : Option Uuid
  requestType : String
  requestStatus : String
  generatedAt : Time
  schemaVersion : String

structure PrivacyProviderContext where
  dataSubjectRequestId : Uuid
  subjectUserId : Uuid
  requesterUserId : Option Uuid
  schemaVersion : String

/-- The context of the providers, for a subject. -/
def ExportContext.forProviders (context : ExportContext) (subject : Uuid) :
    PrivacyProviderContext where
  dataSubjectRequestId := context.dataSubjectRequestId
  subjectUserId := subject
  requesterUserId := context.requesterUserId
  schemaVersion := context.schemaVersion

/-! ## Records -/

/-- A value in the payload of a record. -/
inductive PyValue where
  | null
  | bool (value : Bool)
  | int (value : Int)
  | float (value : JsonFloat)
  | str (value : String)
  | uuid (value : Uuid)
  | datetime (value : Time)
  | date (value : Int)
  | enum (value : String)
  | mapping (members : List (String × PyValue))
  | sequence (items : List PyValue)

/-- The texts of ids and times; a time stands for its instant, whatever its zone. -/
structure ExportTexts where
  uuid : Uuid → String
  uuid_injective : ∀ id id', uuid id = uuid id' → id = id'
  isoformat : Time → String
  dateIsoformat : Int → String

inductive PrivacyExportRecordKind where
  | data
  | reference
  | metadata
  | redactionNotice
  deriving DecidableEq, Repr

def PrivacyExportRecordKind.value : PrivacyExportRecordKind → String
  | .data => "data"
  | .reference => "reference"
  | .metadata => "metadata"
  | .redactionNotice => "redaction_notice"

structure PrivacyExportRecord where
  providerKey : String
  tableName : String
  recordKind : PrivacyExportRecordKind
  payload : List (String × PyValue)
  redactedFields : List String

section
variable (texts : ExportTexts)

mutual

/-- `_json_value`. -/
def jsonValue : PyValue → Json
  | .uuid value => .str (texts.uuid value)
  | .datetime value => .str (texts.isoformat value)
  | .date value => .str (texts.dateIsoformat value)
  | .enum value => .str value
  | .mapping members => .obj (jsonMembers members)
  | .sequence items => .arr (jsonItems items)
  | .null => .null
  | .bool value => .bool value
  | .int value => .int value
  | .float value => .float value
  | .str value => .str value

def jsonItems : List PyValue → List Json
  | [] => []
  | v :: vs => jsonValue v :: jsonItems vs

def jsonMembers : List (String × PyValue) → List (String × Json)
  | [] => []
  | (key, v) :: ms => (key, jsonValue v) :: jsonMembers ms

end

/-- `_serialise_record`. -/
def serialiseRecord (record : PrivacyExportRecord) : Json :=
  .obj [("record_kind", .str record.recordKind.value),
    ("table_name", .str record.tableName),
    ("payload", jsonValue texts (.mapping record.payload)),
    ("redacted_fields", .arr (record.redactedFields.map .str))]

end

/-- What the manifest says of a record with fields left out. -/
def redactionNotice (record : PrivacyExportRecord) : Json :=
  .obj [("provider_key", .str record.providerKey),
    ("table_name", .str record.tableName),
    ("redacted_fields", .arr (record.redactedFields.map .str)),
    ("reason_code", .str "non_exportable_or_review_required")]

/-- The notices after a record. -/
def noteRedaction (notices : List Json) (record : PrivacyExportRecord) : List Json :=
  if record.redactedFields ≠ [] then notices ++ [redactionNotice record] else notices

/-! ## Providers -/

/-- `_EXPORT_PROVIDER_TYPES`. -/
inductive ExportProviderType where
  | userProfile
  | membershipsBySubject
  | organisationsBySubjectMembership
  | invitesBySubject
  | outboxSubjectReferences
  | auditSubjectEvents
  | platformStaffBySubject
  | dsrWorkflowRecords
  | exportArtifactMetadata
  | processingAuthorizations
  | consentRecords
  | privacyNoticeAcceptances
  deriving DecidableEq, Repr

namespace ExportProviderType

def providerKey : ExportProviderType → String
  | userProfile => "users.profile"
  | membershipsBySubject => "memberships.by_subject"
  | organisationsBySubjectMembership => "organisations.by_subject_membership"
  | invitesBySubject => "invites.by_subject_email_or_revoker"
  | outboxSubjectReferences => "outbox.subject_references"
  | auditSubjectEvents => "audit.subject_actor_or_target_join_events"
  | platformStaffBySubject => "platform_staff.by_subject_or_creator"
  | dsrWorkflowRecords => "dsr.workflow_records"
  | exportArtifactMetadata => "export_artifacts.subject_or_actor_metadata"
  | processingAuthorizations => "privacy_governance.authorizations"
  | consentRecords => "privacy_governance.consent_records"
  | privacyNoticeAcceptances => "privacy_governance.notice_acceptances"

def tableName : ExportProviderType → String
  | userProfile => "users"
  | membershipsBySubject => "memberships"
  | organisationsBySubjectMembership => "organisations"
  | invitesBySubject => "invites"
  | outboxSubjectReferences => "outbox_events"
  | auditSubjectEvents => "audit_events"
  | platformStaffBySubject => "platform_staff"
  | dsrWorkflowRecords => "data_subject_requests"
  | exportArtifactMetadata => "export_artifacts"
  | processingAuthorizations => "data_processing_authorizations"
  | consentRecords => "consent_records"
  | privacyNoticeAcceptances => "privacy_notice_acceptances"

end ExportProviderType

def exportProviderTypes : List ExportProviderType :=
  [.userProfile, .membershipsBySubject, .organisationsBySubjectMembership, .invitesBySubject,
    .outboxSubjectReferences, .auditSubjectEvents, .platformStaffBySubject, .dsrWorkflowRecords,
    .exportArtifactMetadata, .processingAuthorizations, .consentRecords,
    .privacyNoticeAcceptances]

theorem exportProviderTypes_keys :
    (exportProviderTypes.map ExportProviderType.providerKey).Nodup := by
  decide

structure SubjectDataExportError where
  reasonCode : String
  deriving DecidableEq, Repr

/-- An exception out of a provider. -/
inductive ProviderException where
  | subjectDataExportError (error : SubjectDataExportError)
  | other

/-- What a provider yields until it ends, and the exception that ends it. -/
structure Yielded where
  records : List PrivacyExportRecord
  exception : Option ProviderException := none

/-- `iter_export_records` of each provider. -/
abbrev IterExportRecords (Db : Type) :=
  ExportProviderType → Db → PrivacyProviderContext → Yielded

/-- The error with which an export ends on an exception of a provider. -/
def ProviderException.raised : ProviderException → SubjectDataExportError
  | .subjectDataExportError error => error
  | .other => ⟨"export_provider_failed"⟩

/-! ## The document -/

section
variable (texts : ExportTexts)

/-- The members before the manifest. -/
def headerFields (context : ExportContext) (subject : Uuid) : List (String × Json) :=
  [("schema_version", .str context.schemaVersion),
    ("generated_at", .str (texts.isoformat context.generatedAt)),
    ("data_subject_request_id", .str (texts.uuid context.dataSubjectRequestId)),
    ("subject_user_id", .str (texts.uuid subject)),
    ("requester_user_id", match context.requesterUserId with
      | some requester => .str (texts.uuid requester)
      | none => .null),
    ("request_type", .str context.requestType),
    ("request_status", .str context.requestStatus),
    ("artifact_id", .str (texts.uuid context.artifactId))]

def manifest (providerKeys : List String) (recordCount : Nat) (redactionNotices : List Json) : Json :=
  .obj [("format", .str "privacy_subject_export"),
    ("provider_count", .int providerKeys.length),
    ("record_count", .int recordCount),
    ("providers", .arr (providerKeys.map .str)),
    ("redaction_notices", .arr redactionNotices)]

/-- `members[key] = value`. -/
def setMember (members : List (String × Json)) (key : String) (value : Json) :
    List (String × Json) :=
  if key ∈ members.map Prod.fst then
    members.map fun m => if m.1 = key then (key, value) else m
  else members ++ [(key, value)]

/-- The variables of `export_subject_data`. -/
structure Collected where
  data : List (String × Json) := []
  redactionNotices : List Json := []
  recordCount : Nat := 0

/-- The turn of a record, with the records before it of the same provider. -/
def collectRecord (done : List Json × Collected) (record : PrivacyExportRecord) :
    List Json × Collected :=
  (done.1 ++ [serialiseRecord texts record],
    { done.2 with
      recordCount := done.2.recordCount + 1
      redactionNotices := noteRedaction done.2.redactionNotices record })

/-- The turn of a provider. -/
def collectProvider (yielded : Yielded) (key : String) (collected : Collected) :
    Except SubjectDataExportError Collected :=
  let (providerRecords, collected) := yielded.records.foldl (collectRecord texts) ([], collected)
  match yielded.exception with
  | some exception => .error exception.raised
  | none => .ok { collected with data := setMember collected.data key (.arr providerRecords) }

variable {Db : Type} (iter : IterExportRecords Db) (db : Db)

def collectProviders (context : PrivacyProviderContext) :
    List ExportProviderType → Collected → Except SubjectDataExportError Collected
  | [], collected => .ok collected
  | provider :: providers, collected =>
      match collectProvider texts (iter provider db context) provider.providerKey collected with
      | .error error => .error error
      | .ok collected => collectProviders context providers collected

def exportSubjectData (context : ExportContext) : Except SubjectDataExportError Json :=
  match context.subjectUserId with
  | none => .error ⟨"subject_user_missing"⟩
  | some subject =>
      match collectProviders texts iter db (context.forProviders subject) exportProviderTypes {} with
      | .error error => .error error
      | .ok collected => .ok <| .obj <| headerFields texts context subject ++
          [("manifest", manifest (collected.data.map Prod.fst) collected.recordCount
              collected.redactionNotices),
            ("data", .obj collected.data)]

end

/-! ## What the document says -/

section
variable {texts : ExportTexts} {Db : Type} {iter : IterExportRecords Db} {db db' : Db}
variable {context : PrivacyProviderContext}

theorem setMember_new {members : List (String × Json)} {key : String}
    (new : key ∉ members.map Prod.fst) (value : Json) :
    setMember members key value = members ++ [(key, value)] :=
  if_neg new

theorem foldl_collectRecord (texts : ExportTexts) (records : List PrivacyExportRecord)
    (done : List Json × Collected) :
    (records.foldl (collectRecord texts) done).1 =
        done.1 ++ records.map (serialiseRecord texts) ∧
      (records.foldl (collectRecord texts) done).2.data = done.2.data := by
  induction records generalizing done with
  | nil => simp
  | cons record records ih =>
      obtain ⟨serialised, data⟩ := ih (collectRecord texts done record)
      rw [List.foldl_cons, serialised, data]
      simp [collectRecord]

/-- When no provider raises, the data has the records of each. -/
theorem collectProviders_data (texts : ExportTexts) (iter : IterExportRecords Db) (db : Db)
    (context : PrivacyProviderContext) (providers : List ExportProviderType) {collected : Collected}
    (ends : ∀ p ∈ providers, (iter p db context).exception = none)
    (distinct : (collected.data.map Prod.fst ++
      providers.map ExportProviderType.providerKey).Nodup) :
    ∃ collected', collectProviders texts iter db context providers collected = .ok collected' ∧
      collected'.data = collected.data ++ providers.map fun p =>
        (p.providerKey, .arr ((iter p db context).records.map (serialiseRecord texts))) := by
  induction providers generalizing collected with
  | nil => exact ⟨collected, rfl, by simp⟩
  | cons provider providers ih =>
      have new : provider.providerKey ∉ collected.data.map Prod.fst := by
        intro member
        rw [List.map_cons] at distinct
        exact (List.nodup_append.mp distinct).2.2 _ member _ List.mem_cons_self rfl
      obtain ⟨serialised, data⟩ :=
        foldl_collectRecord texts (iter provider db context).records ([], collected)
      have turn : ∃ next, collectProvider texts (iter provider db context) provider.providerKey
          collected = .ok next ∧ next.data = collected.data ++ [(provider.providerKey,
            .arr ((iter provider db context).records.map (serialiseRecord texts)))] := by
        simp only [collectProvider, ends provider List.mem_cons_self]
        refine ⟨_, rfl, ?_⟩
        simp only [serialised, data, List.nil_append]
        exact setMember_new new _
      obtain ⟨next, collects, holds⟩ := turn
      have distinct' : (next.data.map Prod.fst ++
          providers.map ExportProviderType.providerKey).Nodup := by
        rw [holds, List.map_append, List.map_singleton, List.append_assoc, List.singleton_append]
        simpa using distinct
      obtain ⟨collected', run, all⟩ :=
        ih (fun p member => ends p (List.mem_cons_of_mem _ member)) distinct'
      refine ⟨collected', ?_, ?_⟩
      · rw [collectProviders, collects]
        exact run
      · rw [all, holds, List.map_cons, List.append_assoc, List.singleton_append]

/-- The document depends on the database through the providers only. -/
theorem collectProviders_congr {providers : List ExportProviderType}
    (same : ∀ p ∈ providers, iter p db context = iter p db' context) (collected : Collected) :
    collectProviders texts iter db context providers collected =
      collectProviders texts iter db' context providers collected := by
  induction providers generalizing collected with
  | nil => rfl
  | cons provider providers ih =>
      rw [collectProviders, collectProviders, same provider List.mem_cons_self]
      split
      · rfl
      · exact ih (fun p member => same p (List.mem_cons_of_mem _ member)) _

end

end Privacy
end SaasTemplate
