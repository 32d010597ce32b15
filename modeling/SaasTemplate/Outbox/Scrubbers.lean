import SaasTemplate.Outbox.Services

/-! # Sessions that scrub outbox payloads

The functions that end an outbox event or scrub its payload, on the objects of their
sessions. A session keeps one object for each event it has loaded, with the values it was
loaded with and the values assigned since; a flush writes the columns that differ, so a
payload is written as a whole, and an object may be older than the row it is flushed to.
-/

set_option linter.unusedSectionVars false

namespace SaasTemplate.Outbox.Scrubbers

open SaasTemplate.Isolation SaasTemplate.Isolation.Prog

/-! ## What the scrubbers make of an event -/

def safePayloadKeys : List String := ["invite_id", "organisation_id", "purpose", "role"]

/-- The items of a payload under safe keys; a payload that is no object has none. -/
def safeItems : Payload → List (String × JsonValue)
  | .dict items => items.filter fun item => safePayloadKeys.contains item.1
  | .other _ => []

/-- `_scrubbed_payload` of the erasure and `_scrubbed_outbox_payload` of the retention, which
    differ in the marker. -/
def scrubbedPayload (marker : String) (payload : Payload) : Payload :=
  .dict (setKey marker (.flag true) (setKey "sensitive_payload_scrubbed" (.flag true)
    (safeItems payload)))

def privacyErasureMarker : String := "privacy_erasure_scrubbed"

def privacyRetentionMarker : String := "privacy_retention_scrubbed"

/-- `_scrub_outbox_event`. -/
def scrubOutboxEvent (event : OutboxEvent) : OutboxEvent :=
  let scrubbed := { event with payload := scrubbedPayload privacyErasureMarker event.payload }
  if event.status = .pending then
    { scrubbed with
      status := .failed, lockedAt := none, nextAttemptAt := none
      lastError := some "privacy_erasure_scrubbed" }
  else if event.lastError.any (· ≠ "privacy_erasure_scrubbed") then
    { scrubbed with lastError := none }
  else scrubbed

/-- The marker of the retention is set to `true`. -/
def isRetentionScrubbed : Payload → Bool
  | .dict items => items.lookup privacyRetentionMarker == some (.flag true)
  | .other _ => false

/-- `_outbox_event_needs_retention`, and the SQL condition of the same name. -/
def needsRetention (event : OutboxEvent) : Bool :=
  !isRetentionScrubbed event.payload ||
    (event.status == .failed && event.lastError.any (· ≠ "privacy_retention_scrubbed")) ||
    (event.lockedAt.isSome || event.nextAttemptAt.isSome)

/-- `_apply_outbox_retention`. -/
def applyOutboxRetention (event : OutboxEvent) : OutboxEvent :=
  { event with
    payload := scrubbedPayload privacyRetentionMarker event.payload
    lockedAt := none
    nextAttemptAt := none
    lastError := if event.status = .failed then some "privacy_retention_scrubbed"
      else event.lastError }

/-! ## Statements -/

/-- The conditions under which rows are selected and locked. -/
inductive Query where
  | byId
  | due (now : Time)
  | stale (staleBefore : Time)
  | ofSubject (email : Option String) (inviteIds : List Uuid)
  | retained (cutoff : Time)

/-- `payload_json["email"].as_string()`. -/
def payloadEmail : Payload → Option String
  | .dict items => (items.lookup "email").map fun
      | .text value => value
      | .flag value => if value then "true" else "false"
      | .other json => json
  | .other _ => none

def Query.meets (text : TextOps) : Query → OutboxEvent → Bool
  | .byId, _ => true
  | .due now, event => event.isDue now
  | .stale staleBefore, event => event.isStale staleBefore
  | .ofSubject email inviteIds, event =>
      event.aggregateId.any inviteIds.contains ||
        email.any fun email => (payloadEmail event.payload).any fun value =>
          text.sqlLower (text.strip value) == email
  | .retained cutoff, event =>
      (event.status == .processed || event.status == .failed) &&
        (event.processedAt.getD event.updatedAt ≤ cutoff) && needsRetention event

/-- Assignments to an object. -/
inductive Change where
  | claimed (now : Time)
  | claimedForDelivery (now : Time)
  | markedProcessed (now : Time)
  | markedFailedAttempt (now : Time) (error : String)
  | scrubOutboxEvent
  | applyOutboxRetention

def Change.apply : Change → OutboxEvent → OutboxEvent
  | .claimed now => OutboxEvent.claimed now
  | .claimedForDelivery now => OutboxEvent.claimedForDelivery now
  | .markedProcessed now => OutboxEvent.markedProcessed now
  | .markedFailedAttempt now error => OutboxEvent.markedFailedAttempt now error
  | .scrubOutboxEvent => Scrubbers.scrubOutboxEvent
  | .applyOutboxRetention => Scrubbers.applyOutboxRetention

/-- An object of a session: the values it was loaded with, and its values now. -/
structure SessionObject where
  loaded : OutboxEvent
  assigned : OutboxEvent
  deriving DecidableEq, Repr

/-- The outbox tables, the objects of each client's session, and the wall clock. -/
structure Db (τ : Type) where
  events : Table Uuid τ OutboxEvent
  claims : Table Uuid τ OutboxDeliveryClaim
  session : τ → Uuid → Option SessionObject
  clock : Time

inductive Statement where
  | now
  | eventIds (query : Query)
  | loadEvent (id : Uuid) (populateExisting : Bool)
  | deliveryClaimedEvent (id : Uuid) (claimToken : String)
  | lockEvent (query : Query) (id : Uuid) (skipLocked populateExisting : Bool)
  | change (id : Uuid) (change : Change)
  | flush (id : Uuid)
  | insertEvent (request : PublishCall) (createdAt updatedAt : Time)
  | deliveryClaim (id : Uuid)
  | insertDeliveryClaim (id : Uuid) (claim : OutboxDeliveryClaim)
  | clearDeliveryClaim (id : Uuid)
  | commit
  | rollback

/-- What a statement returns when it succeeds; an event is returned as its object is now. -/
abbrev Answer : Statement → Type
  | .now => Time
  | .eventIds _ => List Uuid
  | .loadEvent _ _ | .deliveryClaimedEvent _ _ | .lockEvent _ _ _ _ => Option OutboxEvent
  | .deliveryClaim _ => Option OutboxDeliveryClaim
  | _ => Unit

section Exec

variable {τ α : Type} [DecidableEq τ] (text : TextOps) (t : τ)

/-- The effect of a statement: it waits, or it answers and leaves a database. -/
abbrev Effect (τ α : Type) : Type := Option (Except AppError α × Db τ)

def read (a : α) (db : Db τ) : Effect τ α := some (.ok a, db)

/-- The session of `t` has `object` for event `id`. -/
def Db.keep (id : Uuid) (object : Option SessionObject) (db : Db τ) : Db τ :=
  { db with session := Function.update db.session t (Function.update (db.session t) id object) }

/-- A row arrives in the session: an object that is there already stays as it is, unless the
    query populates existing objects. -/
def Db.arrive (id : Uuid) (populateExisting : Bool) (row : OutboxEvent) (db : Db τ) :
    Effect τ (Option OutboxEvent) :=
  match db.session t id with
  | some object =>
      if populateExisting then some (.ok (some row), db.keep t id (some ⟨row, row⟩))
      else some (.ok (some object.assigned), db)
  | none => some (.ok (some row), db.keep t id (some ⟨row, row⟩))

/-- The order in which each query returns its rows. -/
def Query.key : Query → OutboxEvent → Option Time
  | .stale _, event => event.lockedAt
  | _, event => some event.createdAt

def eventIds (query : Query) (db : Db τ) : List Uuid :=
  let before (a b : Uuid × OutboxEvent) : Prop :=
    ∀ x ∈ query.key a.2, ∀ y ∈ query.key b.2, x < y ∨ x = y ∧ a.1 ≤ b.1
  ((db.events.select t fun _ e => query.meets text e).insertionSort before).map (·.1)

/-- The ORM `UPDATE` of the object of one event, if it was changed at all. -/
def flushObject (id : Uuid) (db : Db τ) : Effect τ Unit :=
  match db.session t id with
  | none => read () db
  | some object =>
      if object.assigned = object.loaded then read () db
      else
        (db.events.update Table.unindexed .integrityError t id fun current =>
          some (object.loaded.flush db.clock object.assigned current)).map fun out =>
            match out.1 with
            | .ok (some _) => (.ok (), Db.keep t id (some ⟨object.assigned, object.assigned⟩)
                { db with events := out.2 })
            | .ok none => (.error .staleDataError, { db with events := out.2 })
            | .error e => (.error e, { db with events := out.2 })

/-- What each statement does. -/
def exec (s : Statement) (db : Db τ) : Effect τ (Answer s) :=
  match s with
  | .now => read db.clock db
  | .eventIds query => read (eventIds text t query db) db
  | .loadEvent id populateExisting =>
      match db.events.view t id with
      | none => read none db
      | some row => db.arrive t id populateExisting row
  | .deliveryClaimedEvent id claimToken =>
      match (db.events.view t id).filter fun e => e.status == .processing &&
          (db.claims.view t id).any (·.claimToken == claimToken) with
      | none => read none db
      | some row => db.arrive t id false row
  | .lockEvent query id skipLocked populateExisting =>
      match (db.events.view t id).filter (query.meets text) with
      | none => read none db
      | some row =>
          if db.events.free t id then
            Db.arrive t id populateExisting row
              { db with events := db.events.put t id (some row) }
          else if skipLocked then read none db else none
  | .change id change =>
      match db.session t id with
      | none => read () db
      | some object => read () (db.keep t id (some { object with
          assigned := change.apply object.assigned }))
  | .flush id => flushObject t id db
  | .insertEvent request createdAt updatedAt =>
      (db.events.insert Table.unindexed .integrityError t request.newEventId
        (request.event createdAt updatedAt)).map fun out => (out.1, { db with events := out.2 })
  | .deliveryClaim id => read (db.claims.view t id) db
  | .insertDeliveryClaim id claim =>
      if (db.events.view t id).isSome then
        (db.claims.insert Table.unindexed .integrityError t id claim).map fun out =>
          (out.1, { db with claims := out.2 })
      else some (.error .integrityError, db)
  | .clearDeliveryClaim id =>
      (db.claims.delete t id fun _ => true).map fun out => (.ok (), { db with claims := out.2 })
  | .commit =>
      read () { db with events := db.events.commit t, claims := db.claims.commit t }
  | .rollback =>
      -- a rollback expires the objects of the session
      read () { db with
        events := db.events.rollback t, claims := db.claims.rollback t
        session := Function.update db.session t fun _ => none }

end Exec

/-- The outbox database with its sessions. Any statement but a rollback may fail; a client
    that is lost is rolled back by the server; the clock may show anything. -/
def machine (τ : Type) [DecidableEq τ] (text : TextOps) :
    Machine τ Statement Answer AppError (Db τ) where
  exec := exec text
  fallible s := s ≠ .rollback
  crash t db := { db with
    events := db.events.rollback t, claims := db.claims.rollback t
    session := Function.update db.session t fun _ => none }
  env db db' := ∃ clock, db' = { db with clock }

/-! ## The functions -/

abbrev Tx (α : Type) : Type := Prog Statement Answer AppError α

/-- Await one statement. -/
abbrev sql (s : Statement) : Tx (Answer s) := stmt s

def inTransaction {α : Type} (body : Tx α) : Tx α := transaction .commit .rollback body

/-- The rows that a locking `SELECT ... LIMIT` returns. -/
def lockEvents (limit : Nat) (query : Query) (skipLocked populateExisting : Bool) :
    Tx (List (Uuid × OutboxEvent)) := do
  let ids ← sql (.eventIds query)
  collectUpTo limit ids fun id => do
    let event ← sql (.lockEvent query id skipLocked populateExisting)
    pure (event.map fun event => (id, event))

/-- The same without a limit. -/
def lockAllEvents (query : Query) : Tx (List (Uuid × OutboxEvent)) := do
  let ids ← sql (.eventIds query)
  collect ids fun id => do
    let event ← sql (.lockEvent query id false true)
    pure (event.map fun event => (id, event))

/-- The session writes its changed objects in the order of their primary keys. -/
def flushAll (ids : List Uuid) : Tx Unit :=
  forEach (ids.insertionSort (· ≤ ·)) fun id => sql (.flush id)

def markProcessed (id : Uuid) : Tx Unit := do
  let now ← sql .now
  sql (.clearDeliveryClaim id)
  sql (.change id (.markedProcessed now))
  sql (.flush id)

def markFailedAttempt (id : Uuid) (error : String) : Tx Unit := do
  let now ← sql .now
  sql (.clearDeliveryClaim id)
  sql (.change id (.markedFailedAttempt now error))
  sql (.flush id)

def claimDueEvents (limit : Nat) : Tx (List Uuid) := do
  let now ← sql .now
  let claimed ← lockEvents limit (.due now) true false
  forEach claimed fun row => do
    sql (.clearDeliveryClaim row.1)
    sql (.change row.1 (.claimed now))
  flushAll (claimed.map (·.1))
  pure (claimed.map (·.1))

def claimProcessingEventForDelivery (id : Uuid) (claimToken : String) : Tx (Option OutboxEvent) := do
  let now ← sql .now
  let event ← sql (.lockEvent .byId id false false)
  match event with
  | none => pure none
  | some event =>
      if event.status ≠ .processing then pure none
      else do
        let existingClaim ← sql (.deliveryClaim id)
        if existingClaim.isSome then pure none
        else do
          sql (.insertDeliveryClaim id ⟨claimToken, now⟩)
          sql (.change id (.claimedForDelivery now))
          sql (.flush id)
          sql (.loadEvent id true)

/-- `_apply_result` of the worker. -/
def applyResult (id : Uuid) (claimToken : String) (success : Bool) (error : Option String) :
    Tx Unit := do
  let event ← sql (.deliveryClaimedEvent id claimToken)
  if event.isNone then pure ()
  else if success then markProcessed id
  else match error with
    | none => pure ()
    | some error => markFailedAttempt id error

/-- The release of an event that the broker has refused. -/
def releaseProcessingEventForRetry (id : Uuid) (error : String) : Tx Unit := do
  let event ← sql (.loadEvent id false)
  if event.any (·.status = .processing) then markFailedAttempt id error else pure ()

def recoverStaleProcessingEvents (staleTimeout : Duration) (limit : Nat) : Tx (List Uuid) := do
  let now ← sql .now
  let staleEvents ← lockEvents limit (.stale (now - staleTimeout)) true false
  forEach staleEvents fun row => markFailedAttempt row.1 "stale_processing_recovered"
  pure (staleEvents.map (·.1))

/-- `scrub_outbox_for_approved_erase_request`, after its checks on the request, with the number
    of affected rows. -/
def scrubOutboxForApprovedEraseRequest (subjectEmail : Option String) (inviteIds : List Uuid) :
    Tx Nat := do
  let events ← if inviteIds = [] ∧ subjectEmail = none then pure []
    else lockAllEvents (.ofSubject subjectEmail inviteIds)
  raiseIf (events.any (·.2.status = .processing) = true)
    (.valueError "outbox_erasure_processing_rows_in_flight")
  forEach events fun row => sql (.change row.1 .scrubOutboxEvent)
  flushAll (events.map (·.1))
  pure (events.filter fun row => scrubOutboxEvent row.2 ≠ row.2).length

/-- `_scrub_retained_outbox_events`, not as a dry run. -/
def scrubRetainedOutboxEvents (now : Time) (limit : Nat) : Tx Nat := do
  let events ← lockEvents limit (.retained (now - 30 * 86400)) false true
  let affected := events.filter fun row => needsRetention row.2
  forEach affected fun row => sql (.change row.1 .applyOutboxRetention)
  flushAll (affected.map (·.1))
  pure affected.length

/-! ## Sessions -/

/-- One transaction of a session. -/
inductive ScrubOp where
  | publish (request : PublishCall)
  | claimDueEvents (limit : Nat)
  | claimForDelivery (id : Uuid) (claimToken : String)
  | applyResult (id : Uuid) (claimToken : String) (success : Bool) (error : Option String)
  | releaseForRetry (id : Uuid) (error : String)
  | recoverStale (staleTimeout : Duration) (limit : Nat)
  | eraseSubject (subjectEmail : Option String) (inviteIds : List Uuid)
  | retain (now : Time) (limit : Nat)

def ScrubOp.program : ScrubOp → Tx Unit
  | .publish request => do
      let createdAt ← sql .now
      let updatedAt ← sql .now
      sql (.insertEvent request createdAt updatedAt)
  | .claimDueEvents limit => do let _ ← Scrubbers.claimDueEvents limit
  | .claimForDelivery id claimToken => do let _ ← claimProcessingEventForDelivery id claimToken
  | .applyResult id claimToken success error => Scrubbers.applyResult id claimToken success error
  | .releaseForRetry id error => releaseProcessingEventForRetry id error
  | .recoverStale staleTimeout limit => do
      let _ ← recoverStaleProcessingEvents staleTimeout limit
  | .eraseSubject subjectEmail inviteIds => do
      let _ ← scrubOutboxForApprovedEraseRequest subjectEmail inviteIds
  | .retain now limit => do let _ ← scrubRetainedOutboxEvents now limit

/-- A client runs its transactions one after the other in one session. -/
def sessionProgram (ops : List ScrubOp) : Tx Unit := forEach ops fun op => inTransaction op.program

end SaasTemplate.Outbox.Scrubbers
