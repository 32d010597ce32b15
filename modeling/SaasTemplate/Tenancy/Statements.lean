import Mathlib.Data.List.Sort
import SaasTemplate.Outbox.Model
import SaasTemplate.Tenancy.Model

/-! # Tenants: the statements

One constructor for each SQL statement that the services issue on the tenant tables.
Updates through the ORM address the row by primary key and write the changed columns
only, so they take whatever version of the row is the newest once its lock is theirs.
-/

set_option linter.unusedSectionVars false

namespace SaasTemplate.Tenancy

open SaasTemplate.Isolation
open SaasTemplate.Outbox (written)

/-- The tenant tables and the wall clock. -/
structure Db (τ : Type) where
  users : Table Uuid τ User
  organisations : Table Uuid τ Organisation
  memberships : Table Uuid τ Membership
  invites : Table Uuid τ Invite
  clock : Time

/-- The service function that flushes a changed membership. -/
inductive Writer where
  | changeMembershipRole | removeMembership | transferMembership
  | replaceOwnerMembership | deactivateMembership
  deriving DecidableEq, Repr

inductive Statement where
  | now
  | userById (id : Uuid)
  | userByExternalAuthId (externalAuthId : String)
  | insertUser (id : Uuid) (user : User)
  | updateProfile (id : Uuid) (loaded : User) (identity : AuthenticatedPrincipal)
  | markOnboarded (id : Uuid)
  | organisationById (id : Uuid)
  | organisationBySlug (slug : String)
  | insertOrganisation (id : Uuid) (organisation : Organisation)
  | updateDetails (id : Uuid) (name slug : Option String)
  | softDeleteOrganisation (id : Uuid) (now : Time)
  | membershipForUser (user : Uuid)
  | membershipIn (user organisation : Uuid)
  | membershipById (id organisation : Uuid)
  | countActiveOwners (organisation : Uuid)
  | insertMembership (id : Uuid) (membership : Membership)
  | updateRole (writer : Writer) (id : Uuid) (role : MembershipRole)
  | deactivate (writer : Writer) (id : Uuid)
  | activeMembershipIds (organisation : Uuid)
  | lockActiveMembership (id organisation : Uuid)
  | deactivateIfActive (id organisation : Uuid)
  | pendingInviteByEmail (organisation : Uuid) (email : String)
  | inviteById (id : Uuid)
  | inviteForOrganisation (id organisation : Uuid)
  | insertInvite (id : Uuid) (invite : Invite)
  | acceptPendingByTokenHash (hash : String) (now : Time)
  | expirePendingByTokenHash (hash : String) (now : Time)
  | revokePending (id organisation actor : Uuid) (now : Time)
  | rotatePendingToken (id organisation : Uuid) (newHash : String) (newExpiresAt now : Time)
  | expirePendingById (id organisation : Uuid) (now : Time)
  | completedInvites (acceptedBefore expiredBefore revokedBefore : Time) (batchSize : Nat)
  | scrubInvite (id : Uuid)
  | rateLimit
  | recordAuditEvent
  | publishOutboxEvent
  | commit
  | rollback
  deriving DecidableEq

/-- What a statement returns when it succeeds. -/
abbrev Answer : Statement → Type
  | .now => Time
  | .userById _ => Option User
  | .userByExternalAuthId _ => Option (Uuid × User)
  | .updateProfile _ _ _ => User
  | .organisationById _ => Option Organisation
  | .organisationBySlug _ => Option (Uuid × Organisation)
  | .membershipForUser _ | .membershipIn _ _ => Option (Uuid × Membership)
  | .membershipById _ _ | .lockActiveMembership _ _ => Option Membership
  | .countActiveOwners _ => Nat
  | .activeMembershipIds _ => List Uuid
  | .pendingInviteByEmail _ _ => Option (Uuid × Invite)
  | .inviteById _ | .inviteForOrganisation _ _ => Option Invite
  | .acceptPendingByTokenHash _ _ | .expirePendingByTokenHash _ _ => Option (Uuid × Invite)
  | .revokePending _ _ _ _ | .rotatePendingToken _ _ _ _ _ | .expirePendingById _ _ _ =>
      Option Invite
  | .completedInvites _ _ _ _ => List (Uuid × Invite)
  | _ => Unit

/-- Statements that write no row and end no transaction. -/
def Statement.isQuiet : Statement → Bool
  | .insertUser _ _ | .updateProfile _ _ _ | .markOnboarded _
  | .insertOrganisation _ _ | .updateDetails _ _ _ | .softDeleteOrganisation _ _
  | .insertMembership _ _ | .updateRole _ _ _ | .deactivate _ _
  | .lockActiveMembership _ _ | .deactivateIfActive _ _
  | .insertInvite _ _ | .acceptPendingByTokenHash _ _ | .expirePendingByTokenHash _ _
  | .revokePending _ _ _ _ | .rotatePendingToken _ _ _ _ _ | .expirePendingById _ _ _
  | .scrubInvite _ | .commit | .rollback => false
  | _ => true

/-- Statements that write a row of `users`. -/
def Statement.writesUser : Statement → Bool
  | .insertUser _ _ | .updateProfile _ _ _ | .markOnboarded _ => true
  | _ => false

/-- `expires_at IS NULL OR expires_at > now`. -/
def Invite.isOpenAt (now : Time) (i : Invite) : Bool := i.expiresAt.all (now < ·)

/-- `expires_at <= now`, which is not true of a missing `expires_at`. -/
def Invite.isExpiredAt (now : Time) (i : Invite) : Bool := i.expiresAt.any (· ≤ now)

def Invite.isPending (i : Invite) : Bool := i.status == .pending

/-- The row that a conditional `UPDATE` writes: the new version of one that matches. -/
def updateIf {ρ : Type} (p : ρ → Bool) (change : ρ → ρ) (row : ρ) : Option ρ :=
  if p row then some (change row) else none

/-- The `UPDATE` of `update_profile_fields`, on the row that is at `current` by then: of the
    profile it writes the columns in which the object, loaded as `loaded`, was changed. -/
def User.flushProfile (loaded : User) (identity : AuthenticatedPrincipal) (current : User) : User :=
  { current with
    email := written loaded.email identity.email current.email
    emailVerified := written loaded.emailVerified identity.emailVerified current.emailVerified
    firstName := written loaded.firstName identity.firstName current.firstName
    lastName := written loaded.lastName identity.lastName current.lastName }

section Exec

variable {τ α : Type} [DecidableEq τ] (text : TextOps) (t : τ)

/-- The effect of a statement: it waits, or it answers and leaves a database. -/
abbrev Effect (τ α : Type) : Type := Option (Except AppError α × Db τ)

def read (a : α) (db : Db τ) : Effect τ α := some (.ok a, db)

def onUsers (db : Db τ) (out : Option (Except AppError α × Table Uuid τ User)) : Effect τ α :=
  out.map fun r => (r.1, { db with users := r.2 })

def onOrganisations (db : Db τ) (out : Option (Except AppError α × Table Uuid τ Organisation)) :
    Effect τ α :=
  out.map fun r => (r.1, { db with organisations := r.2 })

def onMemberships (db : Db τ) (out : Option (Except AppError α × Table Uuid τ Membership)) :
    Effect τ α :=
  out.map fun r => (r.1, { db with memberships := r.2 })

def onInvites (db : Db τ) (out : Option (Except AppError α × Table Uuid τ Invite)) : Effect τ α :=
  out.map fun r => (r.1, { db with invites := r.2 })

/-- An ORM flush expects to find the row it updates. -/
def flushed {ρ : Type} (out : Effect τ (Option ρ)) : Effect τ Unit :=
  out.map fun r => (match r.1 with
    | .ok (some _) => .ok ()
    | .ok none => .error .staleDataError
    | .error e => .error e, r.2)

/-- The same with the `refresh` after it, which reads the row back under its lock. -/
def refreshed {ρ : Type} (out : Effect τ (Option ρ)) : Effect τ ρ :=
  out.map fun r => (match r.1 with
    | .ok (some row) => .ok row
    | .ok none => .error .staleDataError
    | .error e => .error e, r.2)

/-- An ORM `UPDATE` of one user by primary key. -/
def updateUser (id : Uuid) (change : User → User) (db : Db τ) : Effect τ Unit :=
  flushed (onUsers db
    (db.users.update User.entries .integrityError t id fun u => some (change u)))

/-- An ORM `UPDATE` of one membership by primary key. -/
def updateMembership (id : Uuid) (change : Membership → Membership) (db : Db τ) : Effect τ Unit :=
  flushed (onMemberships db
    (db.memberships.update Membership.entries .integrityError t id fun m => some (change m)))

/-- `UPDATE invites SET ..., updated_at = now WHERE id = :id AND p RETURNING *`. -/
def updateInvite (id : Uuid) (p : Invite → Bool) (change : Invite → Invite) (db : Db τ) :
    Effect τ (Option Invite) :=
  onInvites db (db.invites.update (Invite.entries text) .integrityError t id
    (updateIf p fun i => { change i with updatedAt := db.clock }))

/-- The same, addressed by the unique token hash. -/
def updateInviteByTokenHash (hash : String) (p : Invite → Bool) (change : Invite → Invite)
    (db : Db τ) : Effect τ (Option (Uuid × Invite)) :=
  match db.invites.selectOne t fun _ i => i.tokenHash == hash && p i with
  | none => read none db
  | some (id, _) =>
      (updateInvite text t id (fun i => i.tokenHash == hash && p i) change db).map fun out =>
        (out.1.map (Option.map fun i => (id, i)), out.2)

/-- Completed invites past their retention, oldest first. -/
def completedInvites (acceptedBefore expiredBefore revokedBefore : Time) (batchSize : Nat)
    (db : Db τ) : List (Uuid × Invite) :=
  let due (i : Invite) : Bool := match i.status with
    | .accepted => i.updatedAt < acceptedBefore
    | .expired => i.updatedAt < expiredBefore
    | .revoked => i.updatedAt < revokedBefore
    | .pending => false
  let rows := db.invites.select t fun _ i => due i && !isScrubbedInvite i
  let older (a b : Uuid × Invite) : Bool :=
    a.2.updatedAt < b.2.updatedAt || a.2.updatedAt == b.2.updatedAt && a.1 ≤ b.1
  (rows.mergeSort older).take batchSize

/-- The end of transaction `t` with all its writes. -/
def Db.commit (db : Db τ) : Db τ :=
  { db with
    users := db.users.commit t, organisations := db.organisations.commit t
    memberships := db.memberships.commit t, invites := db.invites.commit t }

/-- The end of transaction `t` without a trace. -/
def Db.rollback (db : Db τ) : Db τ :=
  { db with
    users := db.users.rollback t, organisations := db.organisations.rollback t
    memberships := db.memberships.rollback t, invites := db.invites.rollback t }

/-- What each statement does. -/
def exec (s : Statement) (db : Db τ) : Effect τ (Answer s) :=
  match s with
  | .now => read db.clock db
  | .userById id => read (db.users.view t id) db
  | .userByExternalAuthId externalAuthId =>
      read (db.users.selectOne t fun _ u => u.externalAuthId == externalAuthId) db
  | .insertUser id user => onUsers db (db.users.insert User.entries .integrityError t id user)
  | .updateProfile id loaded identity => refreshed (onUsers db
      (db.users.update User.entries .integrityError t id fun u =>
        some (loaded.flushProfile identity u)))
  | .markOnboarded id => updateUser t id (fun u => { u with onboardingCompleted := true }) db
  | .organisationById id =>
      read ((db.organisations.view t id).filter fun o => !o.isDeleted) db
  | .organisationBySlug slug =>
      read (db.organisations.selectOne t fun _ o => o.slug == slug && !o.isDeleted) db
  | .insertOrganisation id organisation => onOrganisations db
      (db.organisations.insert Organisation.entries .integrityError t id organisation)
  | .updateDetails id name slug => flushed (onOrganisations db
      (db.organisations.update Organisation.entries .integrityError t id fun o =>
        some { o with name := name.getD o.name, slug := slug.getD o.slug }))
  | .softDeleteOrganisation id now => flushed (onOrganisations db
      (db.organisations.update Organisation.entries .integrityError t id fun o =>
        some { o with deletedAt := some now }))
  | .membershipForUser user =>
      read (db.memberships.selectOne t fun _ m => m.userId == user && m.isActive) db
  | .membershipIn user organisation =>
      read (db.memberships.selectOne t fun _ m =>
        m.userId == user && m.organisationId == organisation && m.isActive) db
  | .membershipById id organisation =>
      read ((db.memberships.view t id).filter fun m =>
        m.organisationId == organisation && m.isActive) db
  | .countActiveOwners organisation =>
      read (db.memberships.select t fun _ m =>
        m.organisationId == organisation && m.isActiveOwner).length db
  | .insertMembership id membership =>
      -- the foreign keys of a membership, checked with the row
      if (db.users.view t membership.userId).isSome &&
          (db.organisations.view t membership.organisationId).isSome then
        onMemberships db
          (db.memberships.insert Membership.entries .integrityError t id membership)
      else some (.error .integrityError, db)
  | .updateRole _ id role => updateMembership t id (fun m => { m with role }) db
  | .deactivate _ id => updateMembership t id (fun m => { m with isActive := false }) db
  | .activeMembershipIds organisation =>
      read ((db.memberships.select t fun _ m =>
        m.organisationId == organisation && m.isActive).map (·.1)) db
  | .lockActiveMembership id organisation =>
      (db.memberships.lockRow t id fun m => m.organisationId == organisation && m.isActive).map
        fun out => (.ok out.1, { db with memberships := out.2 })
  | .deactivateIfActive id organisation =>
      (onMemberships db (db.memberships.update Membership.entries .integrityError t id
        (updateIf (fun m => m.organisationId == organisation && m.isActive) fun m =>
          { m with isActive := false }))).map fun out => (out.1.map fun _ => (), out.2)
  | .pendingInviteByEmail organisation email =>
      read (db.invites.selectOne t fun _ i => i.organisationId == organisation &&
        text.sqlLower i.email == text.lower email && i.isPending) db
  | .inviteById id => read (db.invites.view t id) db
  | .inviteForOrganisation id organisation =>
      read ((db.invites.view t id).filter fun i => i.organisationId == organisation) db
  | .insertInvite id invite =>
      if (db.organisations.view t invite.organisationId).isSome then
        onInvites db (db.invites.insert (Invite.entries text) .integrityError t id invite)
      else some (.error .integrityError, db)
  | .acceptPendingByTokenHash hash now =>
      updateInviteByTokenHash text t hash (fun i => i.isPending && i.isOpenAt now)
        (fun i => { i with status := .accepted }) db
  | .expirePendingByTokenHash hash now =>
      updateInviteByTokenHash text t hash (fun i => i.isPending && i.isExpiredAt now)
        (fun i => { i with status := .expired }) db
  | .revokePending id organisation actor now =>
      updateInvite text t id (fun i => i.organisationId == organisation && i.isPending)
        (fun i => { i with
          status := .revoked, revokedAt := some now, revokedByUserId := some actor }) db
  | .rotatePendingToken id organisation newHash newExpiresAt now =>
      updateInvite text t id
        (fun i => i.organisationId == organisation && i.isPending && i.isOpenAt now)
        (fun i => { i with tokenHash := newHash, expiresAt := some newExpiresAt }) db
  | .expirePendingById id organisation now =>
      updateInvite text t id
        (fun i => i.organisationId == organisation && i.isPending && i.isExpiredAt now)
        (fun i => { i with status := .expired }) db
  | .completedInvites acceptedBefore expiredBefore revokedBefore batchSize =>
      read (completedInvites t acceptedBefore expiredBefore revokedBefore batchSize db) db
  | .scrubInvite id =>
      flushed (updateInvite text t id (fun _ => true) (fun i => { i with
        email := scrubbedInviteEmail id, tokenHash := scrubbedInviteTokenHash id }) db)
  -- rows of tables that nothing here reads
  | .rateLimit | .recordAuditEvent | .publishOutboxEvent => read () db
  | .commit => read () (db.commit t)
  | .rollback => read () (db.rollback t)
end Exec

/-- The tenant database. Any statement but a rollback may fail; a client that is lost is
    rolled back by the server; the clock may show anything at any time. -/
def machine (τ : Type) [DecidableEq τ] (text : TextOps) :
    Machine τ Statement Answer AppError (Db τ) where
  exec := exec text
  fallible s := s ≠ .rollback
  crash t db := db.rollback t
  env db db' := ∃ clock, db' = { db with clock }

end SaasTemplate.Tenancy
