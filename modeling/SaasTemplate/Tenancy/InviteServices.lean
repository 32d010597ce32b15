import SaasTemplate.Tenancy.Services

/-! # Tenants: the invite service

The invite operations, the expiry marking inside an outbox delivery, and the retention
job. A token drawn by `token_urlsafe` is an argument of the call that draws it.
-/

namespace SaasTemplate.Tenancy

open SaasTemplate.Isolation SaasTemplate.Isolation.Prog

/-- Seven days. -/
def defaultInviteTtl : Duration := 604800

def pendingInviteExists : AppError := .conflict "Pending invite already exists for this email"

def invalidInvite : AppError := .badRequest "Invalid or expired invite"

def inviteHasExpired : AppError := .conflict "Invite has expired"

def getActorMembership (organisationId actorUserId : Uuid) : Tx Membership := do
  let actorUser ← getUserById actorUserId
  ensureUserIsActive actorUser
  let organisation ← getOrganisation organisationId
  ensureOrganisationActive organisation
  let actorMembership ← sql (.membershipIn actorUserId organisationId)
  let actorMembership ← orRaise actorMembership (.forbidden "You are not allowed to invite users")
  pure actorMembership.2

structure CreateInviteCall where
  organisationId : Uuid
  actorUserId : Uuid
  auditActor : Option Uuid
  role : MembershipRole
  email : String
  newInviteId : Uuid
  token : String

def createInvite (text : TextOps) (call : CreateInviteCall) : Tx Invite := do
  ensureAuditActorMatches call.actorUserId call.auditActor
  inTransaction do
    raiseIf (call.role = .owner) (.forbidden "Owner role cannot be assigned via invite")
    let actor ← getActorMembership call.organisationId call.actorUserId
    raiseIf (actor.role = .member) (.forbidden "You are not allowed to invite users")
    raiseIf (actor.role = .admin ∧ call.role = .admin) (.forbidden "Admin cannot assign admin role")
    let normalizedEmail := text.lower (text.strip call.email)
    let pending ← sql (.pendingInviteByEmail call.organisationId normalizedEmail)
    raiseIf (pending.isSome = true) pendingInviteExists
    sql .rateLimit
    let now ← sql .now
    let invite : Invite :=
      { email := normalizedEmail, organisationId := call.organisationId, role := call.role
        status := .pending, tokenHash := text.sha256 call.token
        expiresAt := some (now + defaultInviteTtl), revokedAt := none, revokedByUserId := none
        updatedAt := now }
    onIntegrityError (sql (.insertInvite call.newInviteId invite)) (raise pendingInviteExists)
    sql .recordAuditEvent
    sql .publishOutboxEvent
    pure invite

structure AcceptInviteCall where
  token : String
  identity : AuthenticatedPrincipal
  newUserId : Uuid
  newMembershipId : Uuid

/-- The part of `accept_invite` after the conditional update has found the invite. -/
def acceptFoundInvite (text : TextOps) (call : AcceptInviteCall) (invite : Invite) :
    Tx (Uuid × Membership) := do
  raiseIf (call.identity.email.all (fun email => text.lower invite.email ≠ text.lower email) = true)
    (.forbidden "Invite email does not match authenticated user")
  ensureEmailVerified call.identity
  let (userId, user) ← getOrCreateCurrentUser call.identity call.newUserId
  ensureUserIsActive user
  let organisation ← getOrganisation invite.organisationId
  ensureOrganisationActive organisation
  createMembership userId invite.organisationId invite.role call.newMembershipId

def acceptInvite (text : TextOps) (call : AcceptInviteCall) : Tx (Uuid × Membership) :=
  inTransaction do
    let now ← sql .now
    let invite ← sql (.acceptPendingByTokenHash (text.sha256 call.token) now)
    match invite with
    | none => do
        let _ ← sql (.expirePendingByTokenHash (text.sha256 call.token) now)
        raise invalidInvite
    | some (_, invite) => acceptFoundInvite text call invite

structure InviteCall where
  organisationId : Uuid
  inviteId : Uuid
  actorUserId : Uuid
  auditActor : Option Uuid

/-- The checks that `revoke_invite` and `resend_invite` share, with their own texts. -/
def pendingInviteForActor (call : InviteCall) (notPending memberRefused adminRefused : AppError) :
    Tx Invite := do
  let actor ← getActorMembership call.organisationId call.actorUserId
  let invite ← sql (.inviteForOrganisation call.inviteId call.organisationId)
  let invite ← orRaise invite (.notFound "Invite not found")
  raiseIf (invite.status ≠ .pending) notPending
  raiseIf (actor.role = .member) memberRefused
  raiseIf (actor.role = .admin ∧ invite.role = .admin) adminRefused
  pure invite

def revokeInvite (call : InviteCall) : Tx Unit := do
  ensureAuditActorMatches call.actorUserId call.auditActor
  inTransaction do
    let _ ← pendingInviteForActor call (.conflict "Only pending invite can be revoked")
      (.forbidden "You are not allowed to revoke invites")
      (.forbidden "Admin can revoke member invites only")
    let now ← sql .now
    let updated ← sql (.revokePending call.inviteId call.organisationId call.actorUserId now)
    raiseIf (updated.isNone = true) (.conflict "Only pending invite can be revoked")
    sql .recordAuditEvent

def onlyPendingCanBeResent : AppError := .conflict "Only pending invite can be resent"

/-- Mark the invite expired and refuse; what the refusal says depends on the mark. -/
def refuseExpired {α : Type} (call : InviteCall) (now : Time) : Tx α := do
  let expired ← sql (.expirePendingById call.inviteId call.organisationId now)
  raise (if expired.isSome then inviteHasExpired else onlyPendingCanBeResent)

/-- `if self._is_expired_at(...)` of `resend_invite`. -/
def refuseIfExpired (call : InviteCall) (invite : Invite) (now : Time) : Tx Unit :=
  if invite.isExpiredAt now then refuseExpired call now else pure ()

def resendInvite (text : TextOps) (call : InviteCall) (token : String) : Tx Invite := do
  ensureAuditActorMatches call.actorUserId call.auditActor
  inTransaction do
    let invite ← pendingInviteForActor call onlyPendingCanBeResent
      (.forbidden "You are not allowed to resend invites")
      (.forbidden "Admin can resend member invites only")
    let now ← sql .now
    refuseIfExpired call invite now
    sql .rateLimit
    -- the decision time is read again after the rate limiter was awaited
    let now ← sql .now
    refuseIfExpired call invite now
    let rotated ← sql (.rotatePendingToken call.inviteId call.organisationId (text.sha256 token)
      (now + defaultInviteTtl) now)
    match rotated with
    | none => do
        let retryNow ← sql .now
        refuseExpired call retryNow
    | some rotated => do
        sql .recordAuditEvent
        sql .publishOutboxEvent
        pure rotated

/-- What an outbox delivery does to the invite it is about. -/
def expireInDelivery (inviteId : Uuid) : Tx Unit :=
  inTransaction do
    let invite ← sql (.inviteById inviteId)
    match invite with
    | none => pure ()
    | some invite =>
        if invite.status ≠ .pending then pure ()
        else do
          let now ← sql .now
          let _ ← sql (.expirePendingById inviteId invite.organisationId now)
          pure ()

structure InviteRetention where
  accepted : Duration
  expired : Duration
  revoked : Duration
  batchSize : Nat

def anonymiseCompletedInvites (retention : InviteRetention) : Tx Nat :=
  inTransaction do
    let now ← sql .now
    let rows ← sql (.completedInvites (now - retention.accepted) (now - retention.expired)
      (now - retention.revoked) retention.batchSize)
    let rows := rows.filter fun row => !isScrubbedInvite row.2
    forEach rows fun row => sql (.scrubInvite row.1)
    pure rows.length

end SaasTemplate.Tenancy
