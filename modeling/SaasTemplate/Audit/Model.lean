import SaasTemplate.Basics

/-! # Audit events

A row of `audit_events`, how the service records one, and the three ways in which a row is
minimised. `metadata_json` is a JSON column that does not map `None` to SQL NULL: a `None`
that an `INSERT` or `UPDATE` gives explicitly is stored as the JSON value `null`.
-/

namespace SaasTemplate.Audit

inductive AuditCategory where
  | tenant | platform | security | compliance
  deriving DecidableEq, Repr

inductive AuditTargetType where
  | organisation | membership | invite | user | platformStaff | privacyConsent | privacyNotice
  | dataSubjectRequest | exportArtifact
  deriving DecidableEq, Repr

/-- What a nullable JSON column holds. -/
inductive JsonColumn where
  | sqlNull
  | jsonNull
  | value (document : String)
  deriving DecidableEq, Repr

/-- `None` or a document, as given to an `INSERT` or `UPDATE`. -/
def JsonColumn.stored : Option String → JsonColumn
  | none => .jsonNull
  | some document => .value document

/-- What a loaded object has in the column. -/
def JsonColumn.loaded : JsonColumn → Option String
  | .sqlNull | .jsonNull => none
  | .value document => some document

/-- `column IS NOT NULL`. -/
def JsonColumn.isNotNull : JsonColumn → Bool
  | .sqlNull => false
  | .jsonNull | .value _ => true

structure AuditEvent where
  actorUserId : Option Uuid
  category : AuditCategory
  action : String
  targetType : AuditTargetType
  targetId : Option Uuid
  reason : Option String
  metadataJson : JsonColumn
  ipAddress : Option String
  userAgent : Option String
  legalHoldUntil : Option Time
  createdAt : Time
  deriving DecidableEq, Repr

/-! ## Recording -/

structure AuditContext where
  actorUserId : Option Uuid
  ipAddress : Option String
  userAgent : Option String

/-- The checks on metadata and the reduction of network identifiers. -/
structure AuditOps where
  validateMetadataJson : String → Except AppError Unit
  minimiseIpAddress : Option String → Option String
  normaliseUserAgent : Option String → Option String

/-- The row of `AuditEventService.record_event`, which passes every attribute to the
    constructor, `metadata_json=None` included. -/
def recordEvent (ops : AuditOps) (context : AuditContext) (category : AuditCategory)
    (action : String) (targetType : AuditTargetType) (targetId : Option Uuid)
    (reason : Option String) (metadataJson : Option String) (legalHoldUntil : Option Time)
    (createdAt : Time) : Except AppError AuditEvent := do
  match metadataJson with
  | none => pure ()
  | some document => ops.validateMetadataJson document
  pure {
    actorUserId := context.actorUserId
    category, action, targetType, targetId, reason
    metadataJson := .stored metadataJson
    ipAddress := ops.minimiseIpAddress context.ipAddress
    userAgent := ops.normaliseUserAgent context.userAgent
    legalHoldUntil, createdAt }

/-! ## Retention -/

structure AuditSettings where
  retentionDays : Int
  securityRetentionDays : Int
  complianceRetentionDays : Int
  anonymisationBatchSize : Nat
  deriving Repr

/-- `timedelta(days=days)`, in seconds. -/
def timedelta (days : Int) : Duration := days * 86400

namespace AuditEvent

/-- `legal_hold_until IS NULL OR legal_hold_until <= now`. -/
def holdReleased (now : Time) (e : AuditEvent) : Bool := e.legalHoldUntil.all (· ≤ now)

/-- `_audit_event_needs_retention_condition`, and the last predicate of
    `anonymise_events_older_than`. -/
def needsRetention (e : AuditEvent) : Bool :=
  e.actorUserId.isSome || e.reason.isSome || e.metadataJson.isNotNull || e.ipAddress.isSome ||
    e.userAgent.isSome

/-- `_audit_retention_age_condition`. -/
def retentionAge (settings : AuditSettings) (now : Time) (e : AuditEvent) : Bool :=
  (e.category == .security && e.createdAt ≤ now - timedelta settings.securityRetentionDays) ||
  (e.category == .compliance && e.createdAt ≤ now - timedelta settings.complianceRetentionDays) ||
  ((e.category != .security && e.category != .compliance) &&
    e.createdAt ≤ now - timedelta settings.retentionDays)

/-- `_retained_audit_event_filters`. -/
def retained (settings : AuditSettings) (now : Time) (e : AuditEvent) : Bool :=
  e.retentionAge settings now && e.holdReleased now && e.needsRetention

/-- The eligibility predicates of `anonymise_events_older_than`. -/
def eligible (category : AuditCategory) (createdBefore now : Time) (e : AuditEvent) : Bool :=
  e.category == category && e.createdAt < createdBefore && e.holdReleased now && e.needsRetention

/-- The values of both retention updates. -/
def anonymised (e : AuditEvent) : AuditEvent :=
  { e with
    actorUserId := none
    reason := none
    metadataJson := .stored none
    ipAddress := none
    userAgent := none }

end AuditEvent

/-! ## Erasure -/

/-- `_AuditTargetSnapshot`. -/
structure AuditTargetSnapshot where
  subjectUserId : Uuid
  inviteIds : List Uuid
  membershipIds : List Uuid
  dataSubjectRequestIds : List Uuid
  exportArtifactIds : List Uuid
  platformStaffIds : List Uuid
  deriving Repr

/-- `_DIRECT_SUBJECT_TARGET_TYPES`. -/
def AuditTargetType.direct : AuditTargetType → Bool
  | .user | .privacyConsent | .privacyNotice => true
  | _ => false

/-- `target_sets.get(target_type, ())`. -/
def AuditTargetSnapshot.targetIds (snapshot : AuditTargetSnapshot) : AuditTargetType → List Uuid
  | .invite => snapshot.inviteIds
  | .membership => snapshot.membershipIds
  | .dataSubjectRequest => snapshot.dataSubjectRequestIds
  | .exportArtifact => snapshot.exportArtifactIds
  | .platformStaff => snapshot.platformStaffIds
  | .organisation | .user | .privacyConsent | .privacyNotice => []

namespace AuditEvent

/-- `_is_subject_target`, which is also how `_subject_audit_conditions` looks at the target. -/
def isSubjectTarget (snapshot : AuditTargetSnapshot) (e : AuditEvent) : Bool :=
  match e.targetId with
  | none => false
  | some target =>
      if e.targetType.direct then target == snapshot.subjectUserId
      else (snapshot.targetIds e.targetType).contains target

/-- `_subject_audit_conditions`. -/
def ofSubject (snapshot : AuditTargetSnapshot) (e : AuditEvent) : Bool :=
  e.actorUserId == some snapshot.subjectUserId || e.isSubjectTarget snapshot

/-- `_set_if_changed(audit_event, "metadata_json", None, …)`: an object that was loaded with
    `None` is not written. -/
def clearMetadata (column : JsonColumn) : JsonColumn :=
  if column.loaded = none then column else .stored none

/-- `_minimise_audit_event`. -/
def minimised (snapshot : AuditTargetSnapshot) (e : AuditEvent) : AuditEvent :=
  { e with
    actorUserId := if e.actorUserId = some snapshot.subjectUserId then none else e.actorUserId
    targetId := if e.isSubjectTarget snapshot then none else e.targetId
    reason := none
    metadataJson := clearMetadata e.metadataJson
    ipAddress := none
    userAgent := none }

/-- `_reject_active_legal_hold` finds a hold. -/
def holdActive (now : Time) (e : AuditEvent) : Bool := e.legalHoldUntil.any (now < ·)

theorem holdActive_eq (now : Time) (e : AuditEvent) : e.holdActive now = !e.holdReleased now := by
  cases held : e.legalHoldUntil with
  | none => simp [holdActive, holdReleased, held]
  | some expiry =>
      simp only [holdActive, holdReleased, held, Option.any_some, Option.all_some]
      rw [← decide_not, decide_eq_decide]
      exact Int.not_le.symm

@[simp] theorem needsRetention_anonymised (e : AuditEvent) : e.anonymised.needsRetention = true := by
  simp [needsRetention, anonymised, JsonColumn.stored, JsonColumn.isNotNull]

end AuditEvent

end SaasTemplate.Audit
