import SaasTemplate.Tenancy.Statements

/-! # Tenants: the services

The service functions as programs over the statements, in the order in which the
source awaits them. `refresh` after a flush is left out where nothing uses what it reads:
it reads back the row whose lock the transaction already holds. Ids and tokens drawn at
random are arguments.
-/

namespace SaasTemplate.Tenancy

open SaasTemplate.Isolation SaasTemplate.Isolation.Prog

abbrev Tx (α : Type) : Type := Prog Statement Answer AppError α

/-- Await one statement. -/
abbrev sql (s : Statement) : Tx (Answer s) := stmt s

/-- `async with session.begin()`. -/
def inTransaction {α : Type} (body : Tx α) : Tx α := transaction .commit .rollback body

/-- `except IntegrityError`. -/
def onIntegrityError {α : Type} (body handler : Tx α) : Tx α :=
  body.handle fun e => if e = .integrityError then handler else raise e

/-! ## Users -/

def ensureUserIsActive (user : User) : Tx Unit :=
  raiseIf (user.status = .suspended) (.forbidden "User is suspended")

def ensureOrganisationActive (organisation : Organisation) : Tx Unit :=
  raiseIf (organisation.status = .suspended) (.forbidden "Organisation is suspended")

def ensureEmailVerified (identity : AuthenticatedPrincipal) : Tx Unit :=
  raiseIf (identity.emailVerified = false) (.forbidden "Email verification is required")

def ensureAuditActorMatches (actorUserId : Uuid) (auditActor : Option Uuid) : Tx Unit :=
  raiseIf (auditActor ≠ some actorUserId) (.valueError "Audit actor does not match action actor")

def getUserById (id : Uuid) : Tx User := do
  let user ← sql (.userById id)
  orRaise user (.notFound "User not found")

def getOrganisation (id : Uuid) : Tx Organisation := do
  let organisation ← sql (.organisationById id)
  orRaise organisation (.notFound "Organisation not found")

/-- The projection of the caller's claims. -/
def User.ofIdentity (identity : AuthenticatedPrincipal) : User where
  externalAuthId := identity.externalAuthId
  email := identity.email
  emailVerified := identity.emailVerified
  firstName := identity.firstName
  lastName := identity.lastName
  onboardingCompleted := false
  status := .active

def User.withProfile (user : User) (identity : AuthenticatedPrincipal) : User :=
  { user with
    email := identity.email, emailVerified := identity.emailVerified
    firstName := identity.firstName, lastName := identity.lastName }

def refreshCurrentUserProfile (id : Uuid) (user : User) (identity : AuthenticatedPrincipal) :
    Tx (Uuid × User) :=
  if user.withProfile identity = user then pure (id, user)
  else onIntegrityError
    (do
      let row ← sql (.updateProfile id user identity)
      pure (id, row))
    (raise (.conflict "User profile conflicts with existing data"))

/-- The insert runs in a savepoint, so its failure leaves the transaction usable. -/
def createCurrentUser (identity : AuthenticatedPrincipal) (newUserId : Uuid) : Tx (Uuid × User) :=
  onIntegrityError
    (do
      sql (.insertUser newUserId (.ofIdentity identity))
      pure (newUserId, .ofIdentity identity))
    (do
      let existing ← sql (.userByExternalAuthId identity.externalAuthId)
      orRaise existing (.conflict "Unable to provision local user projection"))

def getOrCreateCurrentUser (identity : AuthenticatedPrincipal) (newUserId : Uuid) :
    Tx (Uuid × User) := do
  let user ← sql (.userByExternalAuthId identity.externalAuthId)
  match user with
  | none => createCurrentUser identity newUserId
  | some (id, user) => refreshCurrentUserProfile id user identity

def markOnboardingCompleted (id : Uuid) (user : User) : Tx Unit :=
  if user.onboardingCompleted then pure () else sql (.markOnboarded id)

/-! ## Memberships -/

def ownerInvariantError : AppError := .conflict "Organisation must have exactly one active owner"

def ensureExactlyOneActiveOwner (organisationId : Uuid) : Tx Unit := do
  let count ← sql (.countActiveOwners organisationId)
  raiseIf (count ≠ 1) ownerInvariantError

def Membership.new (userId organisationId : Uuid) (role : MembershipRole) : Membership :=
  ⟨userId, organisationId, role, true⟩

def insertMembership (id : Uuid) (membership : Membership) : Tx (Uuid × Membership) := do
  sql (.insertMembership id membership)
  ensureExactlyOneActiveOwner membership.organisationId
  pure (id, membership)

def createMembership (userId organisationId : Uuid) (role : MembershipRole)
    (newMembershipId : Uuid) : Tx (Uuid × Membership) := do
  let existing ← sql (.membershipForUser userId)
  raiseIf (existing.isSome = true) (.conflict "User already belongs to an organisation")
  onIntegrityError (insertMembership newMembershipId (.new userId organisationId role))
    (raise (if role = .owner then .conflict "Organisation already has an active owner"
      else .conflict "User already belongs to an organisation"))

def getMembershipForOrganisation (membershipId organisationId : Uuid) : Tx Membership := do
  let membership ← sql (.membershipById membershipId organisationId)
  orRaise membership (.notFound "Membership not found")

/-- Who acts on which membership, and what the audit record says. -/
structure MembershipCall where
  organisationId : Uuid
  actorUserId : Uuid
  auditActor : Option Uuid
  membershipId : Uuid

/-- The checks both membership changes begin with: the actor's membership and the target. -/
def actorAndTarget (call : MembershipCall) : Tx (Membership × Membership) := do
  let actorUser ← getUserById call.actorUserId
  ensureUserIsActive actorUser
  let organisation ← getOrganisation call.organisationId
  ensureOrganisationActive organisation
  let actorMembership ← sql (.membershipIn call.actorUserId call.organisationId)
  let actorMembership ← orRaise actorMembership
    (.forbidden "You are not a member of this organisation")
  let target ← getMembershipForOrganisation call.membershipId call.organisationId
  pure (actorMembership.2, target)

def changeMembershipRole (call : MembershipCall) (role : MembershipRole) : Tx Membership := do
  ensureAuditActorMatches call.actorUserId call.auditActor
  inTransaction do
    let (actor, target) ← actorAndTarget call
    raiseIf (role = .owner) (.forbidden "Tenant API cannot assign owner role")
    raiseIf (target.role = .owner) (.forbidden "Owner role cannot be modified")
    raiseIf (actor.role ≠ .owner) (.forbidden "Only owner can change membership roles")
    raiseIf (target.role = role) (.conflict "Membership already has this role")
    sql .rateLimit
    sql (.updateRole .changeMembershipRole call.membershipId role)
    sql .recordAuditEvent
    pure { target with role }

def removeMembership (call : MembershipCall) : Tx Membership := do
  ensureAuditActorMatches call.actorUserId call.auditActor
  inTransaction do
    let (actor, target) ← actorAndTarget call
    raiseIf (target.role = .owner) (.forbidden "Owner membership cannot be removed")
    raiseIf (actor.role = .admin ∧ target.role ≠ .member)
      (.forbidden "Admin can remove only members")
    raiseIf (actor.role ≠ .owner ∧ actor.role ≠ .admin)
      (.forbidden "You are not allowed to remove memberships")
    sql .rateLimit
    sql (.deactivate .removeMembership call.membershipId)
    sql .recordAuditEvent
    pure { target with isActive := false }

/-- Leave the present organisation, if there is one. -/
def leaveForTransfer (existing : Option (Uuid × Membership)) (organisationId : Uuid) : Tx Unit :=
  match existing with
  | none => pure ()
  | some (id, existing) => do
      raiseIf (existing.role = .owner ∧ existing.organisationId ≠ organisationId)
        (.conflict
          "Cross-organisation owner transfer is unsupported without atomic owner replacement")
      sql (.deactivate .transferMembership id)
      ensureExactlyOneActiveOwner existing.organisationId

def transferMembership (userId organisationId : Uuid) (role : MembershipRole)
    (newMembershipId : Uuid) : Tx (Uuid × Membership) :=
  inTransaction do
    let existing ← sql (.membershipForUser userId)
    leaveForTransfer existing organisationId
    onIntegrityError (insertMembership newMembershipId (.new userId organisationId role))
      (raise (if role = .owner then .conflict "Organisation already has an active owner"
        else .integrityError))

/-- `SELECT ... FOR UPDATE` over the active memberships of an organisation. -/
def lockActiveMemberships (organisationId : Uuid) : Tx (List (Uuid × Membership)) := do
  let ids ← sql (.activeMembershipIds organisationId)
  collect ids fun id => do
    let row ← sql (.lockActiveMembership id organisationId)
    pure (row.map fun m => (id, m))

def replaceOwner (organisationId sourceId replacementId : Uuid) : Tx (Uuid × Membership) := do
  let memberships ← lockActiveMemberships organisationId
  let source ← orRaise (memberships.lookup sourceId) (.notFound "Membership not found")
  let replacement ← orRaise (memberships.lookup replacementId) (.notFound "Membership not found")
  raiseIf (source.role ≠ .owner) (.conflict "Source membership is not owner")
  raiseIf (replacement.role = .owner) (.conflict "Replacement membership is already owner")
  sql (.updateRole .replaceOwnerMembership sourceId .admin)
  sql (.updateRole .replaceOwnerMembership replacementId .owner)
  ensureExactlyOneActiveOwner organisationId
  pure (replacementId, { replacement with role := .owner })

def replaceOwnerMembership (organisationId sourceId replacementId : Uuid) :
    Tx (Uuid × Membership) := do
  raiseIf (sourceId = replacementId) (.conflict "Source and replacement owner must be different")
  inTransaction (replaceOwner organisationId sourceId replacementId)

/-- The platform operation: the replacement and its audit record in one transaction. -/
def emergencyReplaceOrganisationOwner (organisationId sourceId replacementId : Uuid) :
    Tx (Uuid × Membership) :=
  inTransaction do
    raiseIf (sourceId = replacementId) (.conflict "Source and replacement owner must be different")
    let replacement ← replaceOwner organisationId sourceId replacementId
    sql .recordAuditEvent
    pure replacement

def ensureOwnerInvariantBeforeDeactivation (membership : Membership) : Tx Unit :=
  if membership.role ≠ .owner then pure ()
  else do
    let count ← sql (.countActiveOwners membership.organisationId)
    raiseIf (count ≤ 1) (.conflict "Organisation must always have at least one owner")

/-- The membership object is one that the session has read before. -/
def deactivateMembership (membershipId organisationId : Uuid) : Tx Membership :=
  inTransaction do
    let membership ← getMembershipForOrganisation membershipId organisationId
    ensureOwnerInvariantBeforeDeactivation membership
    sql (.deactivate .deactivateMembership membershipId)
    pure { membership with isActive := false }

/-! ## Organisations -/

def normalizeName (text : TextOps) (rawName : String) : Tx String := do
  raiseIf (text.strip rawName = "") (.badRequest "Organisation name cannot be blank")
  pure (text.strip rawName)

def normalizeSlug (text : TextOps) (rawSlug : String) : Tx String := do
  let normalized := text.lower (text.strip rawSlug)
  raiseIf (normalized = "") (.badRequest "Organisation slug cannot be blank")
  raiseIf (text.slugPattern normalized = false) (.badRequest
    "Organisation slug may contain only lowercase letters, digits, and hyphens")
  pure normalized

def createOrganisation (text : TextOps) (name slug : String) (newId : Uuid) :
    Tx (Uuid × Organisation) := do
  let name ← normalizeName text name
  let slug ← normalizeSlug text slug
  let existing ← sql (.organisationBySlug slug)
  raiseIf (existing.isSome = true) (.conflict "Organisation slug already exists")
  let organisation : Organisation := ⟨name, slug, none, .active⟩
  onIntegrityError
    (do
      sql (.insertOrganisation newId organisation)
      pure (newId, organisation))
    (raise (.conflict "Organisation slug already exists"))

/-- The ids drawn for the rows that onboarding may insert. -/
structure OnboardingIds where
  user : Uuid
  organisation : Uuid
  membership : Uuid

def createOrganisationForCurrentUser (text : TextOps) (identity : AuthenticatedPrincipal)
    (name slug : String) (ids : OnboardingIds) : Tx (Uuid × Membership) :=
  inTransaction do
    let (userId, user) ← getOrCreateCurrentUser identity ids.user
    ensureUserIsActive user
    ensureEmailVerified identity
    let existing ← sql (.membershipForUser userId)
    raiseIf (existing.isSome = true) (.conflict "You already belong to an organisation")
    let (organisationId, _) ← createOrganisation text name slug ids.organisation
    let membership ← createMembership userId organisationId .owner ids.membership
    markOnboardingCompleted userId user
    pure membership

/-- Who wants which details of an organisation changed. -/
structure UpdateDetailsCall where
  organisationId : Uuid
  actorUserId : Uuid
  auditActor : Option Uuid
  name : Option String
  slug : Option String

/-- `normalize(value) if value is not None else None`. -/
def normalizeIfGiven (normalize : String → Tx String) (value : Option String) :
    Tx (Option String) :=
  match value with
  | none => pure none
  | some raw => do
      let normalized ← normalize raw
      pure (some normalized)

/-- The new value of a column, if it is another one. -/
def changedTo (previous : String) (value : Option String) : Option String :=
  value.filter (· ≠ previous)

/-- The flush writes the columns that have changed. -/
def updateDetails (id : Uuid) (organisation : Organisation) (name slug : Option String) :
    Tx Organisation := do
  sql .rateLimit
  onIntegrityError (sql (.updateDetails id name slug))
    (raise (.conflict "Organisation slug already exists"))
  sql .recordAuditEvent
  pure { organisation with
    name := name.getD organisation.name, slug := slug.getD organisation.slug }

def updateOrganisationDetails (text : TextOps) (call : UpdateDetailsCall) : Tx Organisation := do
  ensureAuditActorMatches call.actorUserId call.auditActor
  inTransaction do
    let organisation ← getOrganisation call.organisationId
    let actorUser ← getUserById call.actorUserId
    ensureUserIsActive actorUser
    ensureOrganisationActive organisation
    let membership ← sql (.membershipIn call.actorUserId call.organisationId)
    raiseIf (membership.all (fun m => m.2.role ≠ .owner && m.2.role ≠ .admin) = true)
      (.forbidden "You are not allowed to update organisation details")
    let name ← normalizeIfGiven (normalizeName text) call.name
    let slug ← normalizeIfGiven (normalizeSlug text) call.slug
    let newName := changedTo organisation.name name
    let newSlug := changedTo organisation.slug slug
    if newName.isNone ∧ newSlug.isNone then pure organisation
    else updateDetails call.organisationId organisation newName newSlug

/-- `UPDATE memberships SET is_active = false WHERE organisation_id = :id AND is_active`. -/
def deactivateOrganisationMemberships (organisationId : Uuid) : Tx Unit := do
  let ids ← sql (.activeMembershipIds organisationId)
  forEach ids fun id => sql (.deactivateIfActive id organisationId)

def softDelete (organisationId actorUserId : Uuid) (auditActor : Option Uuid) : Tx Unit := do
  ensureAuditActorMatches actorUserId auditActor
  inTransaction do
    let organisation ← getOrganisation organisationId
    let actorUser ← getUserById actorUserId
    ensureUserIsActive actorUser
    ensureOrganisationActive organisation
    let membership ← sql (.membershipIn actorUserId organisationId)
    raiseIf (membership.all (fun m => m.2.role ≠ .owner) = true)
      (.forbidden "Only owner can delete organisation")
    let ownerCount ← sql (.countActiveOwners organisationId)
    raiseIf (ownerCount < 1) (.conflict "Organisation must always have at least one owner")
    sql .rateLimit
    deactivateOrganisationMemberships organisationId
    let now ← sql .now
    sql (.softDeleteOrganisation organisationId now)
    sql .recordAuditEvent

end SaasTemplate.Tenancy
