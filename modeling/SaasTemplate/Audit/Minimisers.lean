import Mathlib.Algebra.GroupWithZero.Nat
import Mathlib.Data.List.Sort
import SaasTemplate.Isolation.Transactions
import SaasTemplate.Isolation.RowVersions
import SaasTemplate.Outbox.Model
import SaasTemplate.Audit.Model

/-! # Minimisers and legal holds side by side

The statements on `audit_events` under READ COMMITTED, and the transactions that issue
them: the maintenance pass, the retention service, the audit provider of an erasure, new
events, and whoever places and releases legal holds. An `UPDATE` or a locking `SELECT`
over several rows is the list of ids that it finds, followed by one statement for each of
them that looks at the row again under its lock.
-/

set_option linter.unusedSectionVars false

namespace SaasTemplate.Audit

open SaasTemplate.Isolation SaasTemplate.Isolation.Prog

open SaasTemplate.Outbox (written)

/-- Which rows a retention statement is about. -/
inductive RetentionQuery where
  | retained (settings : AuditSettings) (now : Time)
  | olderThan (category : AuditCategory) (createdBefore now : Time)

/-- The predicates of the statement. -/
def RetentionQuery.holds : RetentionQuery → AuditEvent → Bool
  | .retained settings now => AuditEvent.retained settings now
  | .olderThan category createdBefore now => AuditEvent.eligible category createdBefore now

/-- The reference time in the predicates. -/
def RetentionQuery.now : RetentionQuery → Time
  | .retained _ now | .olderThan _ _ now => now

theorem RetentionQuery.released {query : RetentionQuery} {e : AuditEvent}
    (h : query.holds e = true) : e.holdReleased query.now = true := by
  cases query with
  | retained settings now => exact (Bool.and_eq_true_iff.mp (Bool.and_eq_true_iff.mp h).1).2
  | olderThan category createdBefore now =>
      exact (Bool.and_eq_true_iff.mp (Bool.and_eq_true_iff.mp h).1).2

/-- The write of a flush: the columns in which the object differs from what was loaded. -/
def AuditEvent.flush (loaded assigned current : AuditEvent) : AuditEvent :=
  { current with
    actorUserId := written loaded.actorUserId assigned.actorUserId current.actorUserId
    targetId := written loaded.targetId assigned.targetId current.targetId
    reason := written loaded.reason assigned.reason current.reason
    metadataJson := written loaded.metadataJson assigned.metadataJson current.metadataJson
    ipAddress := written loaded.ipAddress assigned.ipAddress current.ipAddress
    userAgent := written loaded.userAgent assigned.userAgent current.userAgent }

/-- The fields that `_set_if_changed` appends, in the order of the calls. -/
def AuditEvent.changedFields (snapshot : AuditTargetSnapshot) (e : AuditEvent) : List String :=
  (if e.actorUserId = some snapshot.subjectUserId then ["actor_user_id"] else []) ++
  (if e.isSubjectTarget snapshot then ["target_id"] else []) ++
  (if e.reason.isSome then ["reason"] else []) ++
  (if e.metadataJson.loaded.isSome then ["metadata_json"] else []) ++
  (if e.ipAddress.isSome then ["ip_address"] else []) ++
  (if e.userAgent.isSome then ["user_agent"] else [])

/-- The audit events. -/
structure Db (τ : Type) where
  events : Table Uuid τ AuditEvent

inductive Statement where
  | candidateIds (query : RetentionQuery) (limit : Nat)
  | matchingIds (query : RetentionQuery) (ids : List Uuid)
  | anonymise (query : RetentionQuery) (id : Uuid)
  | subjectEventIds (snapshot : AuditTargetSnapshot)
  | lockSubjectEvent (snapshot : AuditTargetSnapshot) (id : Uuid)
  | flushEvent (id : Uuid) (loaded assigned : AuditEvent)
  | setLegalHold (id : Uuid) (legalHoldUntil : Option Time)
  | insertEvent (id : Uuid) (e : AuditEvent)
  | commit
  | rollback

/-- What a statement returns when it succeeds. -/
abbrev Answer : Statement → Type
  | .candidateIds _ _ | .matchingIds _ _ | .subjectEventIds _ => List Uuid
  | .anonymise _ _ => Option Unit
  | .lockSubjectEvent _ _ => Option AuditEvent
  | _ => Unit

section Exec

variable {τ α : Type} [DecidableEq τ] (t : τ)

/-- The effect of a statement: it waits, or it answers and leaves a database. -/
abbrev Effect (τ α : Type) : Type := Option (Except AppError α × Db τ)

def read (a : α) (db : Db τ) : Effect τ α := some (.ok a, db)

/-- `order_by(AuditEvent.created_at.asc(), AuditEvent.id.asc())`. -/
def oldestFirst (rows : List (Uuid × AuditEvent)) : List Uuid :=
  (rows.insertionSort fun a b => a.2.createdAt < b.2.createdAt ∨
    a.2.createdAt = b.2.createdAt ∧ a.1 ≤ b.1).map (·.1)

/-- `audit_events` has no unique index besides its key. -/
def noEntries (_ : AuditEvent) : List Unit := []

/-- `UPDATE ... WHERE id = k`, `f` giving the new version of a row that meets the condition. -/
def updateEvent (k : Uuid) (f : AuditEvent → Option AuditEvent) (db : Db τ) :
    Option (Except AppError (Option AuditEvent) × Db τ) :=
  (db.events.update noEntries .integrityError t k f).map fun out => (out.1, { db with events := out.2 })

/-- An ORM flush expects to find the row it updates. -/
def flushed : Except AppError (Option AuditEvent) → Except AppError Unit
  | .ok (some _) => .ok ()
  | .ok none => .error .staleDataError
  | .error e => .error e

/-- What each statement does. -/
def exec (s : Statement) (db : Db τ) : Effect τ (Answer s) :=
  match s with
  | .candidateIds query limit =>
      read ((oldestFirst (db.events.select t fun _ e => query.holds e)).take limit) db
  | .matchingIds query ids =>
      read ((db.events.select t fun k e => ids.contains k && query.holds e).map (·.1)) db
  | .anonymise query id =>
      (updateEvent t id (fun e => if query.holds e then some e.anonymised else none) db).map
        fun out => (out.1.map fun row => row.map fun _ => (), out.2)
  | .subjectEventIds snapshot =>
      read (oldestFirst (db.events.select t fun _ e => e.ofSubject snapshot)) db
  | .lockSubjectEvent snapshot id =>
      (db.events.lockRow t id (·.ofSubject snapshot)).map fun out =>
        (.ok out.1, { db with events := out.2 })
  | .flushEvent id loaded assigned =>
      (updateEvent t id (fun e => some (loaded.flush assigned e)) db).map fun out =>
        (flushed out.1, out.2)
  | .setLegalHold id legalHoldUntil =>
      (updateEvent t id (fun e => some { e with legalHoldUntil }) db).map fun out =>
        (out.1.map fun _ => (), out.2)
  | .insertEvent id e =>
      (db.events.insert noEntries .integrityError t id e).map fun out =>
        (out.1, { db with events := out.2 })
  | .commit => read () { db with events := db.events.commit t }
  | .rollback => read () { db with events := db.events.rollback t }

end Exec

/-- The audit table. Any statement but a rollback may fail, and a client that is lost is
    rolled back by the server. -/
def machine (τ : Type) [DecidableEq τ] : Machine τ Statement Answer AppError (Db τ) where
  exec := exec
  fallible s := s ≠ .rollback
  crash t db := { db with events := db.events.rollback t }
  env _ _ := False

/-! ## The transactions -/

abbrev Tx (α : Type) : Type := Prog Statement Answer AppError α

/-- Await one statement. -/
abbrev sql (s : Statement) : Tx (Answer s) := stmt s

/-- Select a batch and anonymise it; the update repeats the predicates. -/
def anonymiseRows (query : RetentionQuery) (limit : Nat) : Tx Nat := do
  let ids ← sql (.candidateIds query limit)
  if ids.isEmpty then pure 0
  else do
    let found ← sql (.matchingIds query ids)
    let rows ← collect found fun id => sql (.anonymise query id)
    pure rows.length

/-- `_minimise_retained_audit_events` in the transaction of the maintenance pass. -/
def maintenancePass (settings : AuditSettings) (now : Time) (limit : Nat) : Tx Nat :=
  transaction .commit .rollback (anonymiseRows (.retained settings now) limit)

/-- `retention_windows`, with the cutoffs. -/
def retentionQueries (settings : AuditSettings) (now : Time) : List RetentionQuery :=
  [.olderThan .tenant (now - timedelta settings.retentionDays) now,
   .olderThan .platform (now - timedelta settings.retentionDays) now,
   .olderThan .security (now - timedelta settings.securityRetentionDays) now,
   .olderThan .compliance (now - timedelta settings.complianceRetentionDays) now]

/-- `AuditEventService.anonymise_expired_events` in its caller's transaction. -/
def retentionService (settings : AuditSettings) (now : Time) : Tx Nat :=
  transaction .commit .rollback do
    let counts ← collect (retentionQueries settings now) fun query => do
      let count ← anonymiseRows query settings.anonymisationBatchSize
      pure (some count)
    pure counts.sum

inductive AuditErasureStatus where
  | minimised | alreadyMinimised
  deriving DecidableEq, Repr

structure AuditErasureResult where
  status : AuditErasureStatus
  affectedRows : Nat
  changedFields : List String
  minimisedAt : Time
  deriving DecidableEq, Repr

/-- `_lock_subject_audit_events`. -/
def lockSubjectAuditEvents (snapshot : AuditTargetSnapshot) : Tx (List (Uuid × AuditEvent)) := do
  let ids ← sql (.subjectEventIds snapshot)
  collect ids fun id => do
    let row ← sql (.lockSubjectEvent snapshot id)
    pure (row.map fun row => (id, row))

/-- The assignments of `_minimise_audit_event`, flushed if there was one. -/
def flushMinimised (snapshot : AuditTargetSnapshot) (row : Uuid × AuditEvent) : Tx Unit :=
  if row.2.changedFields snapshot = [] then pure ()
  else sql (.flushEvent row.1 row.2 (row.2.minimised snapshot))

/-- `minimise_audit_events_for_approved_erase_request` in the transaction of the erasure;
    `target` is how the checks on the request and the queries for the snapshot ended. -/
def auditProvider (target : Except AppError AuditTargetSnapshot) (now : Time) :
    Tx AuditErasureResult :=
  transaction .commit .rollback do
    let snapshot ← Prog.done target
    let events ← lockSubjectAuditEvents snapshot
    raiseIf (events.any (·.2.holdActive now) = true) (.valueError "audit_erasure_legal_hold_active")
    forEach events (flushMinimised snapshot)
    let changed := events.filter fun row => row.2.changedFields snapshot ≠ []
    pure {
      status := if changed = [] then .alreadyMinimised else .minimised
      affectedRows := changed.length
      changedFields := (changed.flatMap fun row => row.2.changedFields snapshot).eraseDups
      minimisedAt := now }

/-- Place or release holds on any events. -/
def changeLegalHolds (changes : List (Uuid × Option Time)) : Tx Unit :=
  transaction .commit .rollback (forEach changes fun change => sql (.setLegalHold change.1 change.2))

/-- Record new events, on hold or not. -/
def recordEvents (events : List (Uuid × AuditEvent)) : Tx Unit :=
  transaction .commit .rollback (forEach events fun event => sql (.insertEvent event.1 event.2))

/-- What a client may do with the audit events. -/
inductive AuditOp where
  | maintenancePass (settings : AuditSettings) (now : Time) (limit : Nat)
  | retentionService (settings : AuditSettings) (now : Time)
  | auditProvider (target : Except AppError AuditTargetSnapshot) (now : Time)
  | changeLegalHolds (changes : List (Uuid × Option Time))
  | recordEvents (events : List (Uuid × AuditEvent))

def AuditOp.program : AuditOp → Tx Unit
  | .maintenancePass settings now limit => Audit.maintenancePass settings now limit >>= fun _ => pure ()
  | .retentionService settings now => Audit.retentionService settings now >>= fun _ => pure ()
  | .auditProvider target now => Audit.auditProvider target now >>= fun _ => pure ()
  | .changeLegalHolds changes => Audit.changeLegalHolds changes
  | .recordEvents events => Audit.recordEvents events

/-- The reference time of a minimiser. -/
def AuditOp.referenceTime : AuditOp → Option Time
  | .maintenancePass _ now _ | .retentionService _ now | .auditProvider _ now => some now
  | .changeLegalHolds _ | .recordEvents _ => none

end SaasTemplate.Audit
