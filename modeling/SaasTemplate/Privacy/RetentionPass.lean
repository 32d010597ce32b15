import Mathlib.Data.Prod.Lex
import SaasTemplate.Audit.Retention
import SaasTemplate.Outbox.Scrubbers
import SaasTemplate.Privacy.ArtifactServices
import SaasTemplate.Tenancy.Model

/-! # One pass of the retention

The maintenance pass as a function of the database and of what the storage makes of its
deletions, where nothing else runs. A dry run counts with the same selections.
-/

namespace SaasTemplate.Privacy.Retention

open SaasTemplate.Isolation.LimitedPass
open SaasTemplate.Audit (AuditTable AuditSettings timedelta)
open SaasTemplate.Outbox (OutboxEvent)
open SaasTemplate.Tenancy (Invite scrubbedInviteEmail scrubbedInviteTokenHash isScrubbedInvite)

/-! ## Tables -/

/-- Rows, each under its own id. -/
structure Table (ρ : Type) where
  rows : List (Uuid × ρ)
  nodup : (rows.map (·.1)).Nodup

variable {ρ : Type}

namespace Table

/-- `UPDATE ... SET ... WHERE p`. -/
def update (p : Uuid → ρ → Bool) (f : Uuid → ρ → ρ) (table : Table ρ) : Table ρ where
  rows := table.rows.map fun row => if p row.1 row.2 then (row.1, f row.1 row.2) else row
  nodup := by
    have keys : (table.rows.map fun row =>
        if p row.1 row.2 then (row.1, f row.1 row.2) else row).map (·.1) = table.rows.map (·.1) := by
      rw [List.map_map]
      refine List.map_congr_left fun row _ => ?_
      simp only [Function.comp_apply]
      split <;> rfl
    rw [keys]
    exact table.nodup

/-- The first rows in an order that meet a condition. -/
def select (before : Uuid × ρ → Uuid × ρ → Bool) (p : ρ → Bool) (limit : Nat) (table : Table ρ) :
    List (Uuid × ρ) :=
  ((table.rows.filter fun row => p row.2).insertionSort fun a b => before a b).take limit

end Table

/-- An order by a time, by creation and by id, where rows without the time come last. -/
def orderKey (time : Option Time) (createdAt : Time) (id : Uuid) : Bool ×ₗ Time ×ₗ Time ×ₗ Uuid :=
  toLex (time.isNone, toLex (time.getD 0, toLex (createdAt, id)))

structure RetentionDb where
  invites : Table Invite
  outboxEvents : Table OutboxEvent
  auditEvents : AuditTable
  requests : Table DataSubjectRequest
  artifacts : Table ExportArtifact
  /-- The artifacts for which an expiry was recorded as an audit event. -/
  recordedExpiries : List Uuid
  /-- The time that an update writes into `updated_at`. -/
  clock : Time

structure RetentionSettings where
  acceptedDays : Int
  expiredDays : Int
  revokedDays : Int
  audit : AuditSettings

/-! ## Invites, outbox events, audit events and idempotency keys -/

/-- Load a batch, and rewrite those of it that need it. -/
def retainBatch (dryRun : Bool) (rows : List (Uuid × ρ)) (needs : ρ → Bool) (f : Uuid → ρ → ρ)
    (table : Table ρ) : Nat × Table ρ :=
  let affected := rows.filter fun row => needs row.2
  if dryRun || affected.isEmpty then (affected.length, table)
  else (affected.length, table.update (fun id _ => (affected.map (·.1)).contains id) f)

def inviteNeedsRetention (i : Invite) : Bool :=
  !isScrubbedInvite i || i.revokedByUserId.isSome || i.expiresAt.isSome

/-- `_apply_invite_retention`, flushed at `clock`. -/
def applyInviteRetention (clock : Time) (id : Uuid) (i : Invite) : Invite :=
  { i with
    email := scrubbedInviteEmail id, tokenHash := scrubbedInviteTokenHash id
    expiresAt := none, revokedByUserId := none, updatedAt := clock }

def isRetainedInvite (settings : RetentionSettings) (now : Time) (i : Invite) : Bool :=
  (match i.status with
    | .accepted => i.updatedAt ≤ now - timedelta settings.acceptedDays
    | .expired => i.expiresAt.getD i.updatedAt ≤ now - timedelta settings.expiredDays
    | .revoked => i.revokedAt.getD i.updatedAt ≤ now - timedelta settings.revokedDays
    | .pending => false) && inviteNeedsRetention i

/-- `_anonymise_retained_invites`. -/
def anonymiseRetainedInvites (settings : RetentionSettings) (clock now : Time) (limit : Nat)
    (dryRun : Bool) (table : Table Invite) : Nat × Table Invite :=
  let rows := table.select
    (fun a b => decide (toLex (a.2.updatedAt, a.1) ≤ toLex (b.2.updatedAt, b.1)))
    (isRetainedInvite settings now) limit
  retainBatch dryRun rows inviteNeedsRetention (applyInviteRetention clock) table

def outboxDeliveryRetentionDays : Int := 30

def isRetainedEvent (now : Time) (event : OutboxEvent) : Bool :=
  (event.status == .processed || event.status == .failed) &&
    (event.processedAt.getD event.updatedAt ≤ now - timedelta outboxDeliveryRetentionDays) &&
    Outbox.Scrubbers.needsRetention event

/-- `_scrub_retained_outbox_events`. -/
def scrubRetainedOutboxEvents (clock now : Time) (limit : Nat) (dryRun : Bool)
    (table : Table OutboxEvent) : Nat × Table OutboxEvent :=
  let rows := table.select
    (fun a b => decide (toLex (a.2.createdAt, a.1) ≤ toLex (b.2.createdAt, b.1)))
    (isRetainedEvent now) limit
  retainBatch dryRun rows Outbox.Scrubbers.needsRetention
    (fun _ event => { Outbox.Scrubbers.applyOutboxRetention event with updatedAt := clock }) table

/-- `_minimise_retained_audit_events`. -/
def minimiseRetainedAuditEvents (settings : AuditSettings) (now : Time) (limit : Nat)
    (dryRun : Bool) (table : AuditTable) : Nat × AuditTable :=
  let run := Audit.minimiseRetainedAuditEvents settings now limit table
  if dryRun then (run.selected.length, table) else (run.count, run.table)

def hasExpiredIdempotencyKey (now : Time) (r : DataSubjectRequest) : Bool :=
  r.idempotencyKeyExpiresAt.any (· ≤ now) &&
    (r.idempotencyKeyHash.isSome || r.idempotencyFingerprint.isSome)

def DataSubjectRequest.withoutIdempotencyKey (r : DataSubjectRequest) : DataSubjectRequest :=
  { r with
    idempotencyKeyHash := none, idempotencyFingerprint := none, idempotencyKeyExpiresAt := none }

/-- `_clean_expired_dsr_idempotency_keys`. -/
def cleanExpiredDsrIdempotencyKeys (now : Time) (limit : Nat) (dryRun : Bool)
    (table : Table DataSubjectRequest) : Nat × Table DataSubjectRequest :=
  let ids := (table.select (fun a b => decide (toLex (a.2.idempotencyKeyExpiresAt.getD 0, a.1) ≤
    toLex (b.2.idempotencyKeyExpiresAt.getD 0, b.1))) (hasExpiredIdempotencyKey now) limit).map (·.1)
  if dryRun || ids.isEmpty then (ids.length, table)
  else ((table.rows.filter fun row => ids.contains row.1).length,
    table.update (fun id _ => ids.contains id) fun _ r => DataSubjectRequest.withoutIdempotencyKey r)

/-! ## Export artifacts -/

/-- The three kinds of artifacts whose object is still to be deleted. -/
inductive PurgeKind where
  | cancelled
  | failed
  | expired
  deriving DecidableEq, Repr

namespace PurgeKind

def status : PurgeKind → ExportArtifactStatus
  | .cancelled => .cancelled
  | .failed => .failed
  | .expired => .expired

/-- The conditions of the three queries. -/
def meets (kind : PurgeKind) (a : ExportArtifact) : Bool :=
  a.status == kind.status && a.storageKey.isSome &&
    (kind != .cancelled || a.failureReasonCode == some subjectErasureCancelledExportReason)

def time : PurgeKind → ExportArtifact → Option Time
  | .cancelled, a => a.completedAt
  | .failed, a => a.failedAt
  | .expired, a => some a.expiresAt

def key (kind : PurgeKind) (row : Uuid × ExportArtifact) : Bool ×ₗ Time ×ₗ Time ×ₗ Uuid :=
  orderKey (kind.time row.2) row.2.createdAt row.1

end PurgeKind

/-- `list_cancelled_erasure_purge_retry`, `list_failed_storage_purge_retry` and
`list_expired_storage_purge_retry`. -/
def listPurgeRetry (kind : PurgeKind) (limit : Nat) (excludeIds : List Uuid)
    (table : Table ExportArtifact) : List (Uuid × ExportArtifact) :=
  ((table.rows.filter fun row => kind.meets row.2 && !excludeIds.contains row.1).insertionSort
    fun a b => kind.key a ≤ kind.key b).take limit

/-- `list_expired_ready`; rows that expire together come as they are in the table. -/
def listExpiredReady (now : Time) (limit : Nat) (table : Table ExportArtifact) :
    List (Uuid × ExportArtifact) :=
  table.select (fun a b => a.2.expiresAt ≤ b.2.expiresAt) (·.isExpiredReady now) limit

/-- `_storage_purges_for`. -/
def storagePurgesFor (rows : List (Uuid × ExportArtifact)) : List ExportArtifactStoragePurge :=
  rows.filterMap fun row =>
    match row.2.storageKey with
    | none => none
    | some key =>
        if row.2.isPurgeable then some ⟨row.1, row.2.status, some row.2.storageBackend, key⟩ else none

/-- The row that `get_storage_purge_target` finds. -/
def isPurgeTarget (purge : ExportArtifactStoragePurge) (id : Uuid) (a : ExportArtifact) : Bool :=
  id == purge.artifactId && a.status == purge.expectedStatus &&
    some a.storageBackend == purge.storageBackend && a.storageKey == some purge.storageKey

/-- `clear_export_storage_purge_metadata`, and whether it found its row. -/
def clearPurge (purge : ExportArtifactStoragePurge) (table : Table ExportArtifact) :
    Bool × Table ExportArtifact :=
  if table.rows.any fun row => isPurgeTarget purge row.1 row.2 && row.2.isPurgeable then
    (true, table.update (isPurgeTarget purge) fun _ a => a.withoutStorage)
  else (false, table)

/-- `_clear_export_storage_purges`. -/
def clearPurges : List ExportArtifactStoragePurge → Table ExportArtifact → Nat × Table ExportArtifact
  | [], table => (0, table)
  | purge :: rest, table =>
      let (found, table) := clearPurge purge table
      let (cleared, table) := clearPurges rest table
      ((if found then 1 else 0) + cleared, table)

def artifactsOf (request : Uuid) (table : Table ExportArtifact) : List (Uuid × ExportArtifact) :=
  table.rows.filter fun row => row.2.dataSubjectRequestId == request

/-- The state that goes into the request of an artifact, with its time. -/
def derivedState (now : Time) (row : Uuid × ExportArtifact) (table : Table ExportArtifact) :
    ExecutionState × Time :=
  let latest := latestArtifact (artifactsOf row.2.dataSubjectRequestId table)
  let state := executionStateOf now latest
  let referenceNow := state.eventAt.getD now
  match latest with
  | none => (state, referenceNow)
  | some other =>
      if other.1 = row.1 then (state, referenceNow)
      else
        let derived := executionStateOf referenceNow
          (latestArtifact (artifactsOf other.2.dataSubjectRequestId table))
        (derived, derived.eventAt.getD referenceNow)

/-- The body of the loop of `expire_ready_artifacts`. -/
def expireArtifact (now : Time) (row : Uuid × ExportArtifact) (db : RetentionDb) : RetentionDb :=
  let artifacts := db.artifacts.update (fun id _ => id == row.1) fun _ a => a.markedExpired
  let out := derivedState now row artifacts
  { db with
    artifacts
    requests := db.requests.update
      (fun id r => id == row.2.dataSubjectRequestId && r.requestType == .export)
      fun _ r => r.withExecution out.1 out.2
    recordedExpiries := db.recordedExpiries ++ [row.1] }

def expireReadyArtifacts (now : Time) (limit : Nat) (db : RetentionDb) : List Uuid × RetentionDb :=
  let expired := listExpiredReady now limit db.artifacts
  (expired.map (·.1), expired.foldl (fun db row => expireArtifact now row db) db)

/-- `count_expired_ready_artifacts`. -/
def countExpiredReadyArtifacts (now : Time) (limit : Nat) (table : Table ExportArtifact) : Nat :=
  let cancelled := (listPurgeRetry .cancelled limit [] table).length
  if limit - cancelled = 0 then cancelled
  else
    let failed := (listPurgeRetry .failed (limit - cancelled) [] table).length
    if limit - cancelled - failed = 0 then cancelled + failed
    else
      let ready := (listExpiredReady now (limit - cancelled - failed) table).length
      if limit - cancelled - failed - ready = 0 then cancelled + failed + ready
      else cancelled + failed + ready +
        (listPurgeRetry .expired (limit - cancelled - failed - ready) [] table).length

/-! ## The pass -/

structure Summary where
  expiredExportArtifacts : Nat
  anonymisedInvites : Nat
  scrubbedOutboxEvents : Nat
  minimisedAuditEvents : Nat
  cleanedDsrIdempotencyKeys : Nat
  deriving DecidableEq, Repr

def Summary.total (s : Summary) : Nat :=
  s.expiredExportArtifacts + s.anonymisedInvites + s.scrubbedOutboxEvents + s.minimisedAuditEvents +
    s.cleanedDsrIdempotencyKeys

inductive PassError where
  | valueError (message : String)
  | storage (purge : ExportArtifactStoragePurge)
  deriving DecidableEq

/-- `_run_non_export_retention`. -/
def runNonExportRetention (settings : RetentionSettings) (now : Time) (limit : Nat) (dryRun : Bool)
    (db : RetentionDb) : Summary × RetentionDb :=
  let invites := anonymiseRetainedInvites settings db.clock now limit dryRun db.invites
  let outboxEvents := scrubRetainedOutboxEvents db.clock now limit dryRun db.outboxEvents
  let auditEvents := minimiseRetainedAuditEvents settings.audit now limit dryRun db.auditEvents
  let requests := cleanExpiredDsrIdempotencyKeys now limit dryRun db.requests
  (⟨0, invites.1, outboxEvents.1, auditEvents.1, requests.1⟩,
    { db with
      invites := invites.2, outboxEvents := outboxEvents.2, auditEvents := auditEvents.2
      requests := requests.2 })

/-- `run_privacy_retention_maintenance` as a dry run. -/
def dryRunSummary (settings : RetentionSettings) (now : Time) (limit : Nat) (db : RetentionDb) :
    Summary :=
  { (runNonExportRetention settings now limit true db).1 with
    expiredExportArtifacts := countExpiredReadyArtifacts now limit db.artifacts }

section Storage

-- Does the storage delete the object of a purge?
variable (deletes : ExportArtifactStoragePurge → Bool)

/-- What the export steps did: how many artifacts they processed, and the deletions that failed. -/
structure ExportOutcome where
  processed : Nat
  failures : List ExportArtifactStoragePurge
  db : RetentionDb

/-- The deletions of a step, and then the transaction that clears what was deleted. -/
def purgeStep (purges : List ExportArtifactStoragePurge) (out : ExportOutcome) : ExportOutcome :=
  let cleared := clearPurges (purges.filter deletes) out.db.artifacts
  ⟨out.processed + cleared.1, out.failures ++ purges.filter (!deletes ·),
    { out.db with artifacts := cleared.2 }⟩

def listStep (kind : PurgeKind) (limit : Nat) (excludeIds : List Uuid) (db : RetentionDb) :
    List ExportArtifactStoragePurge :=
  if limit = 0 then [] else storagePurgesFor (listPurgeRetry kind limit excludeIds db.artifacts)

def expireStep (now : Time) (limit : Nat) (out : ExportOutcome) : List Uuid × ExportOutcome :=
  if limit - out.processed = 0 then ([], out)
  else
    let expired := expireReadyArtifacts now (limit - out.processed) out.db
    (expired.1, ⟨out.processed + expired.1.length, out.failures, expired.2⟩)

/-- The export steps of `run_privacy_retention_pass`. -/
def runExportRetention (now : Time) (limit : Nat) (db : RetentionDb) : ExportOutcome :=
  let cancelled := purgeStep deletes (listStep .cancelled limit [] db) ⟨0, [], db⟩
  let failed :=
    purgeStep deletes (listStep .failed (limit - cancelled.processed) [] cancelled.db) cancelled
  let (newlyExpiredIds, expired) := expireStep now limit failed
  purgeStep deletes
    (listStep .expired (limit - expired.processed) newlyExpiredIds expired.db) expired

/-- `run_privacy_retention_pass`. -/
def runPrivacyRetentionPass (settings : RetentionSettings) (now : Time) (limit : Nat)
    (dryRun : Bool) (db : RetentionDb) : Except PassError Summary × RetentionDb :=
  if limit < 1 then (.error (.valueError "Privacy retention batch size must be positive"), db)
  else if dryRun then (.ok (dryRunSummary settings now limit db), db)
  else
    let nonExport := runNonExportRetention settings now limit false db
    let out := runExportRetention deletes now limit nonExport.2
    let summary := { nonExport.1 with expiredExportArtifacts := out.processed }
    match out.failures with
    | [] => (.ok summary, out.db)
    | failure :: _ =>
        (if summary.total = 0 then .error (.storage failure) else .ok summary, out.db)

end Storage

/-! ## Data for concrete passes -/

def exampleSettings : RetentionSettings where
  acceptedDays := 30
  expiredDays := 30
  revokedDays := 30
  audit := ⟨365, 365, 365, 100⟩

/-- An artifact that expired, with its object. -/
def expiredArtifact (key : String) (expiresAt : Time) : ExportArtifact where
  dataSubjectRequestId := 1
  subjectUserId := some 100
  requesterUserId := some 100
  status := .expired
  storageBackend := .local
  storageKey := some key
  filename := some "export.zip"
  contentType := some "application/zip"
  sizeBytes := some 1
  checksumSha256 := some "00"
  requestedByUserId := some 100
  generatedByUserId := none
  failureReasonCode := none
  failureDetail := none
  queuedAt := 0
  startedAt := some 0
  processingToken := none
  processingLeaseExpiresAt := none
  completedAt := some 0
  failedAt := none
  expiresAt := expiresAt
  downloadedAt := none
  downloadCount := 0
  createdAt := 0

def exampleDb : RetentionDb where
  invites := ⟨[], List.nodup_nil⟩
  outboxEvents := ⟨[], List.nodup_nil⟩
  auditEvents := ⟨[], List.nodup_nil⟩
  requests := ⟨[], List.nodup_nil⟩
  artifacts := ⟨[(1, expiredArtifact "a" 1), (2, expiredArtifact "b" 2)], by decide⟩
  recordedExpiries := []
  clock := 10

end SaasTemplate.Privacy.Retention
