import SaasTemplate.Isolation.SettlingPasses
import SaasTemplate.Privacy.RetentionPreview
import SaasTemplate.Sql.Conditions
import SaasTemplate.Text.CodePoints

/-! # The retention queries

The conditions that the database evaluates stand beside the predicates that Python applies to
the rows it returns. On rows whose tombstones and markers come from the scrubbers of the
program the two agree, so no row that Python passes over keeps its place in the queue.
-/

namespace SaasTemplate.Privacy.RetentionQueries

open SaasTemplate.Isolation.LimitedPass SaasTemplate.Privacy.Retention SaasTemplate.Sql
open SaasTemplate.Audit (timedelta)
open SaasTemplate.Outbox (OutboxEvent OutboxStatus Payload)
open SaasTemplate.Outbox.Scrubbers (needsRetention applyOutboxRetention privacyRetentionMarker
  scrubbedPayload)
open SaasTemplate.Tenancy (Invite scrubbedInviteEmail scrubbedInviteTokenHash isScrubbedInvite
  scrubbedInviteEmailDomain scrubbedInviteTokenPrefix)

/-! ## Invites -/

/-- The invites, with the unique index on `token_hash`. -/
structure InviteTable extends Table Invite where
  tokenHashes : (rows.map (·.2.tokenHash)).Nodup

def isAtMost : Option Time → Option Time → Truth := Sql.compare fun a b => a ≤ b

def isBefore : Option Time → Option Time → Truth := Sql.compare fun a b => a < b

def hasStatus (status : Tenancy.InviteStatus) (i : Invite) : Truth := some (i.status == status)

def emailIsScrubbed (i : Invite) : Truth := like i.email s!"%@{scrubbedInviteEmailDomain}"

def tokenIsScrubbed (i : Invite) : Truth := like i.tokenHash s!"{scrubbedInviteTokenPrefix}:%"

/-- `_invite_needs_retention_condition`. -/
def inviteNeedsRetentionCondition (i : Invite) : Truth :=
  (((emailIsScrubbed i).not.or (tokenIsScrubbed i).not).or
    (isNotNull i.revokedByUserId)).or (isNotNull i.expiresAt)

/-- The windows in the query of `_load_retained_invites`; `updated_at` is never null, so
`created_at` after it is never reached. -/
def inviteWindowCondition (settings : RetentionSettings) (now : Time) (i : Invite) : Truth :=
  let acceptedCutoff := now - timedelta settings.acceptedDays
  let expiredCutoff := now - timedelta settings.expiredDays
  let revokedCutoff := now - timedelta settings.revokedDays
  (((hasStatus .accepted i).and (isAtMost (some i.updatedAt) (some acceptedCutoff))).or
    ((hasStatus .expired i).and
      (isAtMost (coalesce [i.expiresAt, some i.updatedAt]) (some expiredCutoff)))).or
    ((hasStatus .revoked i).and
      (isAtMost (coalesce [i.revokedAt, some i.updatedAt]) (some revokedCutoff)))

def retainedInviteCondition (settings : RetentionSettings) (now : Time) (i : Invite) : Truth :=
  (inviteWindowCondition settings now i).and (inviteNeedsRetentionCondition i)

/-- `ORDER BY updated_at ASC, id ASC`. -/
def byUpdate (a b : Uuid × Invite) : Bool :=
  decide (toLex (a.2.updatedAt, a.1) ≤ toLex (b.2.updatedAt, b.1))

/-- `_load_retained_invites`. -/
def loadRetainedInvites (settings : RetentionSettings) (now : Time) (limit : Nat)
    (table : InviteTable) : List (Uuid × Invite) :=
  table.select byUpdate (fun i => (retainedInviteCondition settings now i).holds) limit

/-- The `UPDATE` of one invite in a flush. -/
def flushInvite (f : Uuid → Invite → Invite) (table : InviteTable) (id : Uuid) :
    Except AppError InviteTable :=
  let updated := table.update (fun other _ => other == id) f
  if unique : (updated.rows.map (·.2.tokenHash)).Nodup then .ok ⟨updated, unique⟩
  else .error .integrityError

/-- Rewrite the loaded invites that need it, and flush them in the order of their ids. -/
def rewriteInvites (rows : List (Uuid × Invite)) (needs : Invite → Bool)
    (f : Uuid → Invite → Invite) (table : InviteTable) : Except AppError (Nat × InviteTable) := do
  let affected := (rows.filter fun row => needs row.2).map (·.1)
  let flushed ← (affected.insertionSort (· ≤ ·)).foldlM (flushInvite f) table
  pure (affected.length, flushed)

/-- `_anonymise_retained_invites`. -/
def anonymiseRetainedInvites (settings : RetentionSettings) (clock now : Time) (limit : Nat)
    (dryRun : Bool) (table : InviteTable) : Except AppError (Nat × InviteTable) :=
  let invites := loadRetainedInvites settings now limit table
  let affectedRows := (invites.filter fun row => inviteNeedsRetention row.2).length
  if dryRun || affectedRows == 0 then .ok (affectedRows, table)
  else rewriteInvites invites inviteNeedsRetention (applyInviteRetention clock) table

/-- The cutoffs of `anonymise_completed_invites_older_than`. -/
structure Cutoffs where
  acceptedBefore : Time
  expiredBefore : Time
  revokedBefore : Time

/-- The query of `anonymise_completed_invites_older_than`. -/
def completedInviteCondition (cutoffs : Cutoffs) (i : Invite) : Truth :=
  ((((hasStatus .accepted i).and (isBefore (some i.updatedAt) (some cutoffs.acceptedBefore))).or
    ((hasStatus .expired i).and (isBefore (some i.updatedAt) (some cutoffs.expiredBefore)))).or
    ((hasStatus .revoked i).and (isBefore (some i.updatedAt) (some cutoffs.revokedBefore)))).and
    ((emailIsScrubbed i).and (tokenIsScrubbed i)).not

/-- The assignments of `anonymise_completed_invites_older_than`, flushed at `clock`. -/
def anonymised (clock : Time) (id : Uuid) (i : Invite) : Invite :=
  { i with
    email := scrubbedInviteEmail id, tokenHash := scrubbedInviteTokenHash id, updatedAt := clock }

def loadCompletedInvites (cutoffs : Cutoffs) (batchSize : Nat) (table : InviteTable) :
    List (Uuid × Invite) :=
  table.select byUpdate (fun i => (completedInviteCondition cutoffs i).holds) batchSize

def anonymiseCompletedInvitesOlderThan (cutoffs : Cutoffs) (clock : Time) (batchSize : Nat)
    (table : InviteTable) : Except AppError (Nat × InviteTable) :=
  rewriteInvites (loadCompletedInvites cutoffs batchSize table) (!isScrubbedInvite ·)
    (anonymised clock) table

/-! ## Outbox events -/

/-- `payload_json[marker].as_boolean()`. What a text other than `true` and `false` is cast to is
left open. -/
def payloadMarker (cast : String → Option Bool) : Payload → Truth
  | .dict items =>
      match items.lookup privacyRetentionMarker with
      | none => none
      | some (.flag value) => some value
      | some (.text value) => cast value
      | some (.other json) => cast json
  | .other _ => none

def statusIs (status : OutboxStatus) (event : OutboxEvent) : Truth := some (event.status == status)

/-- `_outbox_event_needs_retention_condition`. -/
def outboxEventNeedsRetentionCondition (cast : String → Option Bool) (event : OutboxEvent) :
    Truth :=
  let failedWithFreeText :=
    ((statusIs .failed event).and (isNotNull event.lastError)).and
      (Sql.compare (· != ·) event.lastError (some "privacy_retention_scrubbed"))
  let staleDeliveryClaim := (isNotNull event.lockedAt).or (isNotNull event.nextAttemptAt)
  ((isNotTrue (payloadMarker cast event.payload)).or failedWithFreeText).or staleDeliveryClaim

/-- The query of `_load_retained_outbox_events`. -/
def retainedEventCondition (cast : String → Option Bool) (now : Time) (event : OutboxEvent) :
    Truth :=
  let cutoff := now - timedelta outboxDeliveryRetentionDays
  (((statusIs .processed event).or (statusIs .failed event)).and
    (isAtMost (coalesce [event.processedAt, some event.updatedAt, some event.createdAt])
      (some cutoff))).and (outboxEventNeedsRetentionCondition cast event)

/-- `ORDER BY created_at ASC, id ASC`. -/
def byCreation (a b : Uuid × OutboxEvent) : Bool :=
  decide (toLex (a.2.createdAt, a.1) ≤ toLex (b.2.createdAt, b.1))

/-- `_load_retained_outbox_events`. -/
def loadRetainedOutboxEvents (cast : String → Option Bool) (now : Time) (limit : Nat)
    (table : Table OutboxEvent) : List (Uuid × OutboxEvent) :=
  table.select byCreation (fun event => (retainedEventCondition cast now event).holds) limit

/-- `_apply_outbox_retention`, flushed at `clock`. -/
def retainedEvent (clock : Time) (_ : Uuid) (event : OutboxEvent) : OutboxEvent :=
  { applyOutboxRetention event with updatedAt := clock }

/-- `_scrub_retained_outbox_events`. -/
def scrubRetainedOutboxEvents (cast : String → Option Bool) (clock now : Time) (limit : Nat)
    (dryRun : Bool) (table : Table OutboxEvent) : Nat × Table OutboxEvent :=
  retainBatch dryRun (loadRetainedOutboxEvents cast now limit table) needsRetention
    (retainedEvent clock) table

/-! ## Conditions and predicates -/

section Predicates

variable {settings : RetentionSettings} {now clock : Time} {cutoffs : Cutoffs} {i : Invite}
  {event : OutboxEvent} {cast : String → Option Bool} {id : Uuid}

theorem emailIsScrubbed_eq :
    emailIsScrubbed i = some (endsWith i.email s!"@{scrubbedInviteEmailDomain}") := by
  have plain : "@anonymous.invalid".toList.all isPlain = true := by decide
  exact congrArg some (likes_endsWith plain)

theorem tokenIsScrubbed_eq :
    tokenIsScrubbed i = some (startsWith i.tokenHash s!"{scrubbedInviteTokenPrefix}:") := by
  have plain : "scrubbed-invite:".toList.all isPlain = true := by decide
  have pattern : (s!"{scrubbedInviteTokenPrefix}:%").toList =
      "scrubbed-invite:".toList ++ ['%'] := by decide
  rw [tokenIsScrubbed, like, pattern]
  exact congrArg some (likes_startsWith plain)

/-- `_invite_needs_retention` is the condition of the query. -/
theorem inviteNeedsRetentionCondition_eq :
    (inviteNeedsRetentionCondition i).holds = inviteNeedsRetention i := by
  simp only [inviteNeedsRetentionCondition, emailIsScrubbed_eq, tokenIsScrubbed_eq, Truth.not_known,
    isNotNull, Truth.holds_or, Truth.holds_known, inviteNeedsRetention, isScrubbedInvite,
    Bool.not_and]

/-- The row is closed, and its window is over. -/
def isDueInvite (settings : RetentionSettings) (now : Time) (i : Invite) : Bool :=
  match i.status with
  | .accepted => i.updatedAt ≤ now - timedelta settings.acceptedDays
  | .expired => i.expiresAt.getD i.updatedAt ≤ now - timedelta settings.expiredDays
  | .revoked => i.revokedAt.getD i.updatedAt ≤ now - timedelta settings.revokedDays
  | .pending => false

theorem inviteWindowCondition_eq :
    (inviteWindowCondition settings now i).holds = isDueInvite settings now i := by
  simp only [inviteWindowCondition, hasStatus, isAtMost, coalesce_getD, compare_known,
    Truth.holds_or, Truth.holds_and, Truth.holds_known, isDueInvite, beq_eq_decide]
  cases i.status <;> simp

/-- The query finds the rows that the model of a pass takes. -/
theorem retainedInviteCondition_eq :
    (retainedInviteCondition settings now i).holds = isRetainedInvite settings now i := by
  rw [retainedInviteCondition, Truth.holds_and, inviteWindowCondition_eq,
    inviteNeedsRetentionCondition_eq]
  rfl

end Predicates

end SaasTemplate.Privacy.RetentionQueries
