import SaasTemplate.Isolation.Phases
import SaasTemplate.Isolation.Watching
import SaasTemplate.Outbox.AtMostOnce

/-! # What a worker has seen when it delivers

A worker reads its event and then the invite, and decides on what it has read. Along the
program of a worker, phases say what has been read and decided so far, and which outcome
the worker still owes the event.
-/

set_option linter.unusedSectionVars false

namespace SaasTemplate.Outbox

open SaasTemplate.Isolation SaasTemplate.Isolation.Prog

open SaasTemplate.Tenancy (Invite)

/-! ## What is read -/

/-- What a worker has read: its event, the invite, the time of that read, and whether the
    invite was expired by the worker. -/
structure Observation where
  event : Option OutboxEvent
  invite : Option Invite
  readAt : Time
  expired : Bool

def Observation.nothing : Observation := ⟨none, none, 0, false⟩

def Observation.note {τ : Type} (db : Db τ) (o : Observation) :
    (s : Statement) → Except AppError (Answer s) → Observation
  | .eventById _, .ok event => { o with event }
  | .inviteById _, .ok invite => { o with invite, readAt := db.clock }
  | .expirePendingInvite _ _ _, .ok expired => { o with expired := expired.isSome }
  | _, _ => o

abbrev WatchedDb (τ : Type) : Type := Watched τ (Db τ) Observation

/-- The outbox, with what its workers have read. -/
def watchedMachine (τ : Type) [DecidableEq τ] (text : TextOps) :
    Machine τ Statement Answer AppError (WatchedDb τ) := (machine τ text).watched Observation.note

/-! ## What is decided -/

/-- Why a worker does not deliver. -/
inductive Refusal where
  | eventType | malformedPayload | inviteNotFound | notPending | expired | deliveryDisabled
  | decryption | hashMismatch
  deriving DecidableEq, Repr

/-- The error of a refusal after which the event is tried again; `none` where there is nothing
    left to deliver. -/
def Refusal.error : Refusal → Option String
  | .eventType | .notPending | .expired | .deliveryDisabled => none
  | .malformedPayload => some "malformed_outbox_payload"
  | .inviteNotFound => some "invite_not_found"
  | .decryption => some "outbox_payload_decryption_failed"
  | .hashMismatch => some "token_hash_mismatch"

/-- The token that a worker delivers, or why it delivers none. -/
def DeliveryOps.verdict (ops : DeliveryOps) (text : TextOps) (event : OutboxEvent)
    (invite : Option Invite) (expired : Bool) : Except Refusal String :=
  if ¬inviteOutboxEventTypes.contains event.eventType then .error .eventType
  else match ops.parseInviteOutboxPayload event.payload with
  | none => .error .malformedPayload
  | some payload => match invite with
    | none => .error .inviteNotFound
    | some invite =>
      if invite.status ≠ .pending then .error .notPending
      else if expired then .error .expired
      else if ¬ops.inviteDeliveryEnabled then .error .deliveryDisabled
      else match ops.decryptToken payload.encryptedRawToken with
        | none => .error .decryption
        | some rawToken =>
          if text.sha256 rawToken ≠ invite.tokenHash then .error .hashMismatch
          else .ok rawToken

/-! ## Phases -/

/-- Where a worker is: before its event is known, with the event, with the invite, with a
    decision, with an outcome to write, or with nothing left to do. -/
inductive DeliveryPhase where
  | claiming
  | skipped
  | claimed (event : OutboxEvent) (payload : InviteOutboxPayload)
  | found (event : OutboxEvent) (payload : InviteOutboxPayload) (invite : Invite)
  | sending (invite : Invite) (rawToken : String)
  | settled (error : Option String)
  | loaded (error : Option String) (event : OutboxEvent)
  | reported (error : Option String)
  | ended

/-- What the worker makes of the event with an outcome. -/
def IsOutcomeOf (error : Option String) (event assigned : OutboxEvent) : Prop :=
  ∃ now, assigned = match error with
    | none => event.markedProcessed now
    | some error => event.markedFailedAttempt now error

namespace DeliveryPhase

variable (ops : DeliveryOps) (text : TextOps)

def ofEvent (event : OutboxEvent) : DeliveryPhase :=
  if event.status = .processed ∨ event.status = .failed then .skipped
  else if ¬inviteOutboxEventTypes.contains event.eventType then .settled none
  else match ops.parseInviteOutboxPayload event.payload with
  | none => .settled (some "malformed_outbox_payload")
  | some payload => .claimed event payload

def ofInvite (event : OutboxEvent) (payload : InviteOutboxPayload) :
    Option Invite → DeliveryPhase
  | none => .settled (some "invite_not_found")
  | some invite =>
      if invite.status ≠ .pending then .settled none else .found event payload invite

def ofExpiry (payload : InviteOutboxPayload) (invite : Invite) (expired : Bool) : DeliveryPhase :=
  if expired then .settled none
  else if ¬ops.inviteDeliveryEnabled then .settled none
  else match ops.keyError with
  | some _ => .ended
  | none => match ops.decryptToken payload.encryptedRawToken with
    | none => .settled (some "outbox_payload_decryption_failed")
    | some rawToken =>
      if text.sha256 rawToken ≠ invite.tokenHash then .settled (some "token_hash_mismatch")
      else .sending invite rawToken

/-- The automaton of a worker for event `id`. -/
noncomputable def next (id : Uuid) :
    Automaton DeliveryPhase Statement Answer AppError
  | _, .rollback, _ => some .ended
  | .sending invite rawToken, .deliver id' invite' rawToken', r =>
      if id' = id ∧ invite' = invite ∧ rawToken' = rawToken then
        match r with
        | .ok _ => some (.settled none)
        | .error e => some (.settled (some ("delivery_failed:" ++ e.typeName)))
      else none
  | .reported _, .commit, _ => some .ended
  | .claiming, .commit, .ok _ => some .skipped
  | .skipped, .commit, .ok _ => some .skipped
  | .sending invite rawToken, .commit, .ok _ => some (.sending invite rawToken)
  | .settled error, .commit, .ok _ => some (.settled error)
  | .claiming, .eventById _, .ok event => some (event.elim .skipped (ofEvent ops))
  | .claiming, .flushEvent _ _ before assigned, .ok _ =>
      if assigned.status = before.status then some .claiming else none
  | .claiming, .now, .ok _ => some .claiming
  | .claiming, .lockEvent _, .ok _ => some .claiming
  | .claiming, .deliveryClaim _, .ok _ => some .claiming
  | .claiming, .insertDeliveryClaim _ _, .ok _ => some .claiming
  | .claimed event payload, .inviteById _, .ok invite => some (ofInvite event payload invite)
  | .found event payload invite, .now, .ok _ => some (.found event payload invite)
  | .found _ payload invite, .expirePendingInvite _ _ _, .ok expired =>
      some (ofExpiry ops text payload invite expired.isSome)
  | .settled error, .deliveryClaimedEvent _ _, .ok event =>
      some (event.elim (.settled error) (.loaded error))
  | .loaded error event, .now, .ok _ => some (.loaded error event)
  | .loaded error event, .clearDeliveryClaim _, .ok _ => some (.loaded error event)
  | .loaded error event, .flushEvent _ id' event' assigned, .ok _ =>
      open Classical in
      if id' = id ∧ event' = event ∧ IsOutcomeOf error event assigned then some (.reported error)
      else none
  | _, _, .error _ => some .ended
  | _, _, _ => none

end DeliveryPhase

/-! ## Workers keep to their phases -/

section Programs

variable {ops : DeliveryOps} {text : TextOps} {id : Uuid} {φ : DeliveryPhase} {α : Type}

/-- A statement, and what follows it; after an exception there is only a rollback. -/
theorem follows_sql {s : Statement} {f : Answer s → Tx α}
    {Q : Except AppError α → DeliveryPhase → Prop} (ψ : Answer s → DeliveryPhase)
    (answers : ∀ a, DeliveryPhase.next ops text id φ s (.ok a) = some (ψ a))
    (raises : ∀ e, DeliveryPhase.next ops text id φ s (.error e) = some .ended)
    (further : ∀ a, (f a).Follows (DeliveryPhase.next ops text id) Q (ψ a))
    (fails : ∀ e, Q (.error e) .ended) :
    (sql s >>= f).Follows (DeliveryPhase.next ops text id) Q φ := by
  intro r
  cases r with
  | ok a => exact ⟨ψ a, answers a, further a⟩
  | error e => exact ⟨.ended, raises e, fails e⟩

/-- After its claim a worker has its event, or none. -/
def Claims (ops : DeliveryOps) : Except AppError (Option OutboxEvent) → DeliveryPhase → Prop
  | .ok none, ψ => ψ = .claiming ∨ ψ = .skipped
  | .ok (some event), ψ => ψ = .ofEvent ops event
  | .error _, _ => True

theorem claimProcessingEventForDelivery_follows (claimToken : String) :
    (claimProcessingEventForDelivery id claimToken).Follows (DeliveryPhase.next ops text id)
      (Claims ops) .claiming := by
  refine follows_sql (fun _ => .claiming) (fun _ => rfl) (fun _ => rfl) (fun now => ?_)
    fun _ => trivial
  refine follows_sql (fun _ => .claiming) (fun _ => rfl) (fun _ => rfl) (fun event => ?_)
    fun _ => trivial
  cases event with
  | none => exact .inl rfl
  | some event =>
      dsimp only
      split
      · exact .inl rfl
      · refine follows_sql (fun _ => .claiming) (fun _ => rfl) (fun _ => rfl)
          (fun existingClaim => ?_) fun _ => trivial
        split
        · exact .inl rfl
        · refine follows_sql (fun _ => .claiming) (fun _ => if_pos rfl) (fun _ => rfl) (fun _ => ?_)
            fun _ => trivial
          refine follows_sql (fun _ => .claiming) (fun _ => rfl) (fun _ => rfl) (fun _ => ?_)
            fun _ => trivial
          intro r
          cases r with
          | error e => exact ⟨.ended, rfl, trivial⟩
          | ok event =>
              refine ⟨_, rfl, ?_⟩
              cases event with
              | none => exact .inr rfl
              | some event => exact rfl

/-- The action of a worker, and its phase. -/
def Decides : Except AppError DeliveryAction → DeliveryPhase → Prop
  | .ok .skip, ψ => ψ = .claiming ∨ ψ = .skipped
  | .ok .markProcessed, ψ => ψ = .settled none
  | .ok (.fail error), ψ => ψ = .settled (some error)
  | .ok (.deliver invite rawToken), ψ => ψ = .sending invite rawToken
  | .error _, _ => True

/-- The decision, once the event is claimed. -/
theorem deliveryAction_follows (event : OutboxEvent) :
    (if event.status = .processed ∨ event.status = .failed then pure .skip
      else if ¬inviteOutboxEventTypes.contains event.eventType then pure .markProcessed
      else match ops.parseInviteOutboxPayload event.payload with
      | none => pure (.fail "malformed_outbox_payload")
      | some payload => do
        let invite ← sql (.inviteById payload.inviteId)
        match invite with
        | none => pure (.fail "invite_not_found")
        | some invite =>
          if invite.status ≠ .pending then pure .markProcessed
          else do
            let now ← sql .now
            let expiredInvite ←
              sql (.expirePendingInvite payload.inviteId invite.organisationId now)
            if expiredInvite.isSome then pure .markProcessed
            else if ¬ops.inviteDeliveryEnabled then pure .markProcessed
            else match ops.keyError with
            | some error => raise (.valueError error)
            | none => match ops.decryptToken payload.encryptedRawToken with
              | none => pure (.fail "outbox_payload_decryption_failed")
              | some rawToken =>
                if text.sha256 rawToken ≠ invite.tokenHash then pure (.fail "token_hash_mismatch")
                else pure (.deliver invite rawToken) : Tx DeliveryAction).Follows
      (DeliveryPhase.next ops text id) Decides (.ofEvent ops event) := by
  unfold DeliveryPhase.ofEvent
  split
  · exact .inr rfl
  split
  · exact rfl
  cases parsed : ops.parseInviteOutboxPayload event.payload with
  | none => exact rfl
  | some payload =>
      refine follows_sql (.ofInvite event payload) (fun _ => rfl) (fun _ => rfl) (fun invite => ?_)
        fun _ => trivial
      cases invite with
      | none => exact rfl
      | some invite =>
          simp only [DeliveryPhase.ofInvite]
          split
          · exact rfl
          refine follows_sql (fun _ => .found event payload invite) (fun _ => rfl) (fun _ => rfl)
            (fun now => ?_) fun _ => trivial
          refine follows_sql (fun expired => .ofExpiry ops text payload invite expired.isSome)
            (fun _ => rfl) (fun _ => rfl) (fun expired => ?_) fun _ => trivial
          simp only [DeliveryPhase.ofExpiry]
          split
          · exact rfl
          split
          · exact rfl
          cases ops.keyError with
          | some error => trivial
          | none =>
              cases ops.decryptToken payload.encryptedRawToken with
              | none => exact rfl
              | some rawToken =>
                  dsimp only
                  split
                  · exact rfl
                  · exact rfl

/-- What the decision leads to, once it is committed. -/
def Commits : Except AppError DeliveryAction → DeliveryPhase → Prop
  | .ok .skip, ψ => ψ = .skipped
  | r, ψ => Decides r ψ

theorem getClaimedEventContext_follows (claimToken : String) :
    (getClaimedEventContext text ops id claimToken).Follows (DeliveryPhase.next ops text id)
      Commits .claiming := by
  refine Follows.block (Q := Decides) ((claimProcessingEventForDelivery_follows claimToken).bind
    (fun event ψ claims => ?_) fun _ _ _ => trivial) ?_ (fun ψ r => ⟨.ended, rfl⟩)
    fun _ _ => trivial
  · cases event with
    | none => exact claims
    | some event =>
        cases claims
        exact deliveryAction_follows event
  · intro action ψ decides r
    have commits (χ : DeliveryPhase) (is : Commits (.ok action) χ)
        (answers : DeliveryPhase.next ops text id ψ .commit (.ok ()) = some χ)
        (fails : ∀ e, DeliveryPhase.next ops text id ψ .commit (.error e) = some .ended) :
        ∃ χ, DeliveryPhase.next ops text id ψ .commit r = some χ ∧
          ∀ x, r = .ok x → Commits (.ok action) χ := by
      cases r with
      | ok _ => exact ⟨χ, answers, fun _ _ => is⟩
      | error e => exact ⟨.ended, fails e, nofun⟩
    cases action with
    | skip =>
        rcases decides with rfl | rfl <;> exact commits .skipped rfl rfl fun _ => rfl
    | markProcessed | fail | deliver =>
        cases decides
        exact commits _ rfl rfl fun _ => rfl

theorem reportOutcome_follows {writer : Writer} {event : OutboxEvent} {error : Option String}
    {outcome : Time → OutboxEvent} (is : ∀ now, IsOutcomeOf error event (outcome now)) :
    (reportOutcome writer id event outcome).Follows (DeliveryPhase.next ops text id)
      (fun r ψ => ∀ a, r = .ok a → ψ = .reported error) (.loaded error event) := by
  refine follows_sql (fun _ => .loaded error event) (fun _ => rfl) (fun _ => rfl) (fun now => ?_)
    fun _ => nofun
  refine follows_sql (fun _ => .loaded error event) (fun _ => rfl) (fun _ => rfl) (fun _ => ?_)
    fun _ => nofun
  intro r
  cases r with
  | ok _ => exact ⟨.reported error, if_pos ⟨rfl, rfl, is now⟩, fun _ _ => rfl⟩
  | error e => exact ⟨.ended, rfl, nofun⟩

theorem applyResult_follows (claimToken : String) (success : Bool) (error : Option String)
    (ends : success = error.isNone) :
    (applyResult id claimToken success error).Follows (DeliveryPhase.next ops text id)
      (fun _ _ => True) (.settled error) := by
  refine Follows.transaction
    (Q := fun r ψ => ∀ a, r = .ok a → ψ = .settled error ∨ ψ = .reported error) ?_ ?_
    fun ψ r => ⟨.ended, rfl⟩
  · refine follows_sql (fun event => event.elim (.settled error) (.loaded error)) (fun _ => rfl)
      (fun _ => rfl) (fun event => ?_) fun _ => nofun
    cases event with
    | none => exact fun _ _ => .inl rfl
    | some event =>
        cases error with
        | none =>
            subst ends
            exact (reportOutcome_follows fun now => ⟨now, rfl⟩).mono fun r ψ reported a is =>
              .inr (reported a is)
        | some error =>
            subst ends
            exact (reportOutcome_follows fun now => ⟨now, rfl⟩).mono fun r ψ reported a is =>
              .inr (reported a is)
  · rintro a ψ ends r
    rcases ends a rfl with rfl | rfl
    · cases r with
      | ok _ => exact ⟨_, rfl⟩
      | error e => exact ⟨.ended, rfl⟩
    · exact ⟨.ended, rfl⟩

theorem processOutboxEvent_follows (claimToken : String) :
    (processOutboxEvent text ops id claimToken).Follows (DeliveryPhase.next ops text id)
      (fun _ _ => True) .claiming := by
  refine (getClaimedEventContext_follows claimToken).bind (fun action ψ commits => ?_)
    fun _ _ _ => trivial
  cases action with
  | skip => trivial
  | markProcessed =>
      cases commits
      exact applyResult_follows claimToken true none rfl
  | fail error =>
      cases commits
      exact applyResult_follows claimToken false (some error) rfl
  | deliver invite rawToken =>
      cases commits
      intro r
      cases r with
      | ok _ =>
          exact ⟨.settled none, if_pos ⟨rfl, rfl, rfl⟩,
            applyResult_follows claimToken true none rfl⟩
      | error e =>
          exact ⟨.settled (some ("delivery_failed:" ++ e.typeName)), if_pos ⟨rfl, rfl, rfl⟩,
            applyResult_follows claimToken false _ rfl⟩

end Programs

end SaasTemplate.Outbox
