import Mathlib.Algebra.Group.Int.Defs
import SaasTemplate.Basics

/-! # The outbox: events and delivery claims

An event is claimed by a dispatcher, handed to a worker through the broker, claimed again
by that worker for its delivery, and ends in an outcome. The changes of an event are
functions on the loaded object; what reaches the database is the columns in which the
object then differs from what was loaded.
-/

namespace SaasTemplate.Outbox

inductive OutboxStatus where
  | pending | processing | processed | failed
  deriving DecidableEq, Repr

/-- A value inside a JSON document. -/
inductive JsonValue where
  | text (value : String)
  | flag (value : Bool)
  | other (json : String)
  deriving DecidableEq, Repr

/-- `payload_json`: a JSON object with its keys in order, or some other JSON document. -/
inductive Payload where
  | dict (items : List (String × JsonValue))
  | other (json : String)
  deriving DecidableEq, Repr

structure OutboxEvent where
  eventType : String
  aggregateType : Option String
  aggregateId : Option Uuid
  payload : Payload
  status : OutboxStatus
  attempts : Nat
  maxAttempts : Nat
  nextAttemptAt : Option Time
  lockedAt : Option Time
  processedAt : Option Time
  lastError : Option String
  createdAt : Time
  updatedAt : Time
  deriving DecidableEq, Repr

/-- A delivery claim; its primary key is the id of the event. -/
structure OutboxDeliveryClaim where
  claimToken : String
  claimedAt : Time
  deriving DecidableEq, Repr

def inviteOutboxEventTypes : List String := ["invite.created", "invite.resent"]

def sensitiveInvitePayloadKeys : List String := ["email", "encrypted_raw_token"]

/-- `items[key] = value`: an existing key keeps its place. -/
def setKey (key : String) (value : JsonValue) (items : List (String × JsonValue)) :
    List (String × JsonValue) :=
  if items.any (·.1 == key) then items.map fun item => if item.1 == key then (key, value) else item
  else items ++ [(key, value)]

def Payload.scrubSensitive : Payload → Payload
  | .dict items => .dict (setKey "sensitive_payload_scrubbed" (.flag true)
      (items.filter fun item => !sensitiveInvitePayloadKeys.contains item.1))
  | .other json => .other json

namespace OutboxEvent

def scrubSensitiveDeliveryPayload (event : OutboxEvent) : OutboxEvent :=
  if inviteOutboxEventTypes.contains event.eventType then
    { event with payload := event.payload.scrubSensitive }
  else event

/-- `next_attempt_at IS NULL OR next_attempt_at <= now`, for a pending event. -/
def isDue (now : Time) (event : OutboxEvent) : Bool :=
  event.status == .pending && event.nextAttemptAt.all (· ≤ now)

/-- `locked_at < stale_before`, for an event in processing. -/
def isStale (staleBefore : Time) (event : OutboxEvent) : Bool :=
  event.status == .processing && event.lockedAt.any (· < staleBefore)

def claimed (now : Time) (event : OutboxEvent) : OutboxEvent :=
  { event with status := .processing, lockedAt := some now, updatedAt := now }

def claimedForDelivery (now : Time) (event : OutboxEvent) : OutboxEvent :=
  { event with lockedAt := some now, updatedAt := now }

def markedProcessed (now : Time) (event : OutboxEvent) : OutboxEvent :=
  scrubSensitiveDeliveryPayload { event with
    status := .processed, processedAt := some now, lockedAt := none, lastError := none,
    updatedAt := now }

/-- `error[:500]`. -/
def truncated (error : String) : String := String.ofList (error.toList.take 500)

def markedFailedAttempt (now : Time) (error : String) (event : OutboxEvent) : OutboxEvent :=
  let attempts := event.attempts + 1
  let marked := { event with
    attempts, lockedAt := none, lastError := some (truncated error), updatedAt := now }
  if attempts ≥ marked.maxAttempts then
    scrubSensitiveDeliveryPayload { marked with status := .failed, nextAttemptAt := none }
  else { marked with status := .pending, nextAttemptAt := some (now + 2 ^ attempts) }

end OutboxEvent

/-- A column in an `UPDATE` by the ORM: written only if the object was changed in it. -/
def written {α : Type} [DecidableEq α] (loaded assigned current : α) : α :=
  if assigned = loaded then current else assigned

@[simp] theorem written_same {α : Type} [DecidableEq α] (loaded current : α) :
    written loaded loaded current = current := by
  simp [written]

theorem written_of_ne {α : Type} [DecidableEq α] {loaded assigned current : α}
    (h : assigned ≠ loaded) : written loaded assigned current = assigned := by
  simp [written, h]

/-- Against the version it was loaded from, a flush writes what was assigned. -/
@[simp] theorem written_self {α : Type} [DecidableEq α] (loaded assigned : α) :
    written loaded assigned loaded = assigned := by
  unfold written
  split
  · rename_i same
    exact same.symm
  · rfl

/-- The `UPDATE` that flushes an object loaded as `loaded` and changed to `assigned`, on a
    row that is at `current` by then. An unassigned `updated_at` takes its `onupdate`. -/
def OutboxEvent.flush (clock : Time) (loaded assigned current : OutboxEvent) : OutboxEvent where
  eventType := written loaded.eventType assigned.eventType current.eventType
  aggregateType := written loaded.aggregateType assigned.aggregateType current.aggregateType
  aggregateId := written loaded.aggregateId assigned.aggregateId current.aggregateId
  payload := written loaded.payload assigned.payload current.payload
  status := written loaded.status assigned.status current.status
  attempts := written loaded.attempts assigned.attempts current.attempts
  maxAttempts := written loaded.maxAttempts assigned.maxAttempts current.maxAttempts
  nextAttemptAt := written loaded.nextAttemptAt assigned.nextAttemptAt current.nextAttemptAt
  lockedAt := written loaded.lockedAt assigned.lockedAt current.lockedAt
  processedAt := written loaded.processedAt assigned.processedAt current.processedAt
  lastError := written loaded.lastError assigned.lastError current.lastError
  createdAt := written loaded.createdAt assigned.createdAt current.createdAt
  updatedAt := if assigned.updatedAt = loaded.updatedAt then clock else assigned.updatedAt

/-! ## What the changes leave alone -/

namespace OutboxEvent

variable (event : OutboxEvent)

@[simp] theorem status_scrub : event.scrubSensitiveDeliveryPayload.status = event.status := by
  unfold scrubSensitiveDeliveryPayload
  split <;> rfl

@[simp] theorem attempts_scrub : event.scrubSensitiveDeliveryPayload.attempts = event.attempts := by
  unfold scrubSensitiveDeliveryPayload
  split <;> rfl

@[simp] theorem maxAttempts_scrub :
    event.scrubSensitiveDeliveryPayload.maxAttempts = event.maxAttempts := by
  unfold scrubSensitiveDeliveryPayload
  split <;> rfl

@[simp] theorem status_markedProcessed (now : Time) :
    (event.markedProcessed now).status = .processed := by
  simp [markedProcessed]

@[simp] theorem attempts_markedProcessed (now : Time) :
    (event.markedProcessed now).attempts = event.attempts := by
  simp [markedProcessed]

@[simp] theorem maxAttempts_markedProcessed (now : Time) :
    (event.markedProcessed now).maxAttempts = event.maxAttempts := by
  simp [markedProcessed]

@[simp] theorem attempts_markedFailedAttempt (now : Time) (error : String) :
    (event.markedFailedAttempt now error).attempts = event.attempts + 1 := by
  simp only [markedFailedAttempt]
  split <;> simp

@[simp] theorem maxAttempts_markedFailedAttempt (now : Time) (error : String) :
    (event.markedFailedAttempt now error).maxAttempts = event.maxAttempts := by
  simp only [markedFailedAttempt]
  split <;> simp

/-- A failed attempt is final exactly when it was the last one. -/
theorem status_markedFailedAttempt (now : Time) (error : String) :
    (event.markedFailedAttempt now error).status =
      if event.attempts + 1 ≥ event.maxAttempts then .failed else .pending := by
  simp only [markedFailedAttempt]
  split <;> simp

end OutboxEvent

end SaasTemplate.Outbox
