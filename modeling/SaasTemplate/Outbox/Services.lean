import SaasTemplate.Outbox.Statements

/-! # The outbox: publisher, dispatcher and worker

The functions of the repository, the dispatcher and the worker as programs over the
statements. What lies outside is a parameter: the broker, the sink, the validation of a
payload and the decryption of its token. Ids and claim tokens drawn at random are
arguments.
-/

namespace SaasTemplate.Outbox

open SaasTemplate.Isolation SaasTemplate.Isolation.Prog

open SaasTemplate.Tenancy (Invite)

abbrev Tx (α : Type) : Type := Prog Statement Answer AppError α

/-- Await one statement. -/
abbrev sql (s : Statement) : Tx (Answer s) := stmt s

/-- `async with session.begin()`. -/
def inTransaction {α : Type} (body : Tx α) : Tx α := transaction .commit .rollback body

/-! ## Publishing -/

structure PublishCall where
  newEventId : Uuid
  eventType : String
  aggregateType : String
  aggregateId : Uuid
  payload : Payload

/-- An event with the defaults of its columns. -/
def PublishCall.event (call : PublishCall) (createdAt updatedAt : Time) : OutboxEvent where
  eventType := call.eventType
  aggregateType := some call.aggregateType
  aggregateId := some call.aggregateId
  payload := call.payload
  status := .pending
  attempts := 0
  maxAttempts := 10
  nextAttemptAt := none
  lockedAt := none
  processedAt := none
  lastError := none
  createdAt := createdAt
  updatedAt := updatedAt

def publishEvent (call : PublishCall) : Tx (Option OutboxEvent) := do
  let createdAt ← sql .now
  let updatedAt ← sql .now
  sql (.insertEvent call.newEventId (call.event createdAt updatedAt))
  sql (.eventById call.newEventId)

/-! ## The repository -/

/-- The rows that a locking `SELECT ... LIMIT` returns. -/
def lockEvents (limit : Nat) (ids : List Uuid) (lock : Uuid → Tx (Option OutboxEvent)) :
    Tx (List (Uuid × OutboxEvent)) :=
  collectUpTo limit ids fun id => do
    let event ← lock id
    pure (event.map fun event => (id, event))

def claimDueEvents (limit : Nat) : Tx (List (Uuid × OutboxEvent)) := do
  let now ← sql .now
  let ids ← sql (.dueEventIds now)
  let claimed ← lockEvents limit ids fun id => sql (.lockDueEvent id now)
  forEach claimed fun row => sql (.clearDeliveryClaim row.1)
  -- the session writes the changed objects in the order of their primary keys
  forEach (claimed.insertionSort fun a b => a.1 ≤ b.1) fun row =>
    sql (.flushEvent .claimDueEvents row.1 row.2 (row.2.claimed now))
  pure (claimed.map fun row => (row.1, row.2.claimed now))

def claimProcessingEventForDelivery (id : Uuid) (claimToken : String) : Tx (Option OutboxEvent) := do
  let now ← sql .now
  let event ← sql (.lockEvent id)
  match event with
  | none => pure none
  | some event =>
      if event.status ≠ .processing then pure none
      else do
        let existingClaim ← sql (.deliveryClaim id)
        if existingClaim.isSome then pure none
        else do
          sql (.flushEvent .claimForDelivery id event (event.claimedForDelivery now))
          sql (.insertDeliveryClaim id ⟨claimToken, now⟩)
          sql (.eventById id)

/-- What `mark_processed` and `mark_failed_attempt` do with the changed event. -/
def reportOutcome (writer : Writer) (id : Uuid) (event : OutboxEvent)
    (outcome : Time → OutboxEvent) : Tx Unit := do
  let now ← sql .now
  sql (.clearDeliveryClaim id)
  sql (.flushEvent writer id event (outcome now))

def markProcessed (writer : Writer) (id : Uuid) (event : OutboxEvent) : Tx Unit :=
  reportOutcome writer id event fun now => event.markedProcessed now

def markFailedAttempt (writer : Writer) (id : Uuid) (event : OutboxEvent) (error : String) :
    Tx Unit :=
  reportOutcome writer id event fun now => event.markedFailedAttempt now error

def releaseProcessingEventForRetry (id : Uuid) (event : OutboxEvent) (error : String) : Tx Unit :=
  if event.status ≠ .processing then pure ()
  else markFailedAttempt .releaseForRetry id event error

def recoverStaleEvents (staleTimeout : Duration) (limit : Nat) :
    Tx (List (Uuid × OutboxEvent)) := do
  let now ← sql .now
  let staleBefore := now - staleTimeout
  let ids ← sql (.staleEventIds staleBefore)
  let staleEvents ← lockEvents limit ids fun id => sql (.lockStaleEvent id staleBefore)
  forEach staleEvents fun row =>
    markFailedAttempt .recoverStale row.1 row.2 "stale_processing_recovered"
  pure staleEvents

/-! ## The dispatcher -/

def recoverStaleProcessingEvents (staleTimeout : Duration) (limit : Nat) : Tx Nat := do
  let recovered ← inTransaction (recoverStaleEvents staleTimeout limit)
  pure recovered.length

/-- The release of an event that the broker has refused. -/
def releaseAfterEnqueueFailure (id : Uuid) (errorType : String) : Tx Unit :=
  inTransaction do
    let persistedEvent ← sql (.eventById id)
    match persistedEvent with
    | none => pure ()
    | some persistedEvent =>
        releaseProcessingEventForRetry id persistedEvent ("enqueue_failed:" ++ errorType)

/-- `send` is the broker: the type of the exception that it raises for an event, if any. -/
def claimAndEnqueueDueOutboxEvents (limit : Nat) (send : Uuid → Option String) : Tx Nat := do
  let claimedEvents ← inTransaction (claimDueEvents limit)
  let enqueued ← collect claimedEvents fun row =>
    match send row.1 with
    | none => pure (some row.1)
    | some errorType => do
        releaseAfterEnqueueFailure row.1 errorType
        pure none
  pure enqueued.length

/-! ## The worker -/

/-- The fields of a valid invite payload that the worker reads. -/
structure InviteOutboxPayload where
  inviteId : Uuid
  encryptedRawToken : String

/-- What the worker takes from outside this module and the database. -/
structure DeliveryOps where
  parseInviteOutboxPayload : Payload → Option InviteOutboxPayload
  inviteDeliveryEnabled : Bool
  /-- The error of a missing or malformed encryption key. -/
  keyError : Option String
  decryptToken : String → Option String

inductive DeliveryAction where
  | skip
  | markProcessed
  | fail (error : String)
  | deliver (invite : Invite) (rawToken : String)

def getClaimedEventContext (text : TextOps) (ops : DeliveryOps) (id : Uuid) (claimToken : String) :
    Tx DeliveryAction :=
  inTransaction do
    let event ← claimProcessingEventForDelivery id claimToken
    match event with
    | none => pure .skip
    | some event =>
      if event.status = .processed ∨ event.status = .failed then pure .skip
      else if ¬inviteOutboxEventTypes.contains event.eventType then pure .markProcessed
      else match ops.parseInviteOutboxPayload event.payload with
      | none => pure (.fail "malformed_outbox_payload")
      | some payload => do
        let invite ← sql (.inviteById payload.inviteId)
        match invite with
        | none => pure (.fail "invite_not_found")
        | some invite =>
          if invite.status ≠ .pending then pure .markProcessed
          else do
            let now ← sql .now
            let expiredInvite ←
              sql (.expirePendingInvite payload.inviteId invite.organisationId now)
            if expiredInvite.isSome then pure .markProcessed
            else if ¬ops.inviteDeliveryEnabled then pure .markProcessed
            else match ops.keyError with
            | some error => raise (.valueError error)
            | none => match ops.decryptToken payload.encryptedRawToken with
              | none => pure (.fail "outbox_payload_decryption_failed")
              | some rawToken =>
                if text.sha256 rawToken ≠ invite.tokenHash then pure (.fail "token_hash_mismatch")
                else pure (.deliver invite rawToken)

def applyResult (id : Uuid) (claimToken : String) (success : Bool) (error : Option String) :
    Tx Unit :=
  inTransaction do
    let event ← sql (.deliveryClaimedEvent id claimToken)
    match event with
    | none => pure ()
    | some event =>
        if success then markProcessed (.applyResult claimToken) id event
        else match error with
        | none => pure ()
        | some error => markFailedAttempt (.applyResult claimToken) id event error

/-- Hand the token to the sink, which may raise anything. -/
def deliver (id : Uuid) (invite : Invite) (rawToken : String) : Tx (Option String) :=
  (do sql (.deliver id invite rawToken); pure none).handle fun e => pure (some e.typeName)

def processOutboxEvent (text : TextOps) (ops : DeliveryOps) (id : Uuid) (claimToken : String) :
    Tx Unit := do
  let action ← getClaimedEventContext text ops id claimToken
  match action with
  | .skip => pure ()
  | .markProcessed => applyResult id claimToken true none
  | .fail error => applyResult id claimToken false (some error)
  | .deliver invite rawToken => do
      let failure ← deliver id invite rawToken
      match failure with
      | some errorType => applyResult id claimToken false (some ("delivery_failed:" ++ errorType))
      | none => applyResult id claimToken true none

/-! ## The clients -/

inductive OutboxOp where
  | publish (request : PublishCall)
  | dispatch (limit : Nat) (send : Uuid → Option String)
  | work (id : Uuid) (claimToken : String) (ops : DeliveryOps)
  | recover (staleTimeout : Duration) (limit : Nat)

/-- The program of an operation, without its result. -/
def OutboxOp.program (text : TextOps) : OutboxOp → Tx Unit
  | .publish request => do let _ ← inTransaction (publishEvent request)
  | .dispatch limit send => do let _ ← claimAndEnqueueDueOutboxEvents limit send
  | .work id claimToken ops => processOutboxEvent text ops id claimToken
  | .recover staleTimeout limit => do let _ ← recoverStaleProcessingEvents staleTimeout limit

/-- The claim token of a worker. -/
def OutboxOp.claimToken : OutboxOp → Option String
  | .work _ claimToken _ => some claimToken
  | _ => none

end SaasTemplate.Outbox
