import SaasTemplate.Basics
import SaasTemplate.Isolation.RowStatements
import SaasTemplate.Isolation.RelyGuarantee

/-! # Tenants: the rows

The rows of `users`, `organisations`, `memberships` and `invites`, with the unique
indexes declared on them.
-/

namespace SaasTemplate.Tenancy

inductive MembershipRole where
  | owner | admin | member
  deriving DecidableEq, Repr

inductive UserStatus where
  | active | suspended
  deriving DecidableEq, Repr

inductive OrganisationStatus where
  | active | suspended
  deriving DecidableEq, Repr

inductive InviteStatus where
  | pending | accepted | expired | revoked
  deriving DecidableEq, Repr

structure User where
  externalAuthId : String
  email : Option String
  emailVerified : Bool
  firstName : Option String
  lastName : Option String
  onboardingCompleted : Bool
  status : UserStatus
  deriving DecidableEq, Repr

structure Organisation where
  name : String
  slug : String
  deletedAt : Option Time
  status : OrganisationStatus
  deriving DecidableEq, Repr

structure Membership where
  userId : Uuid
  organisationId : Uuid
  role : MembershipRole
  isActive : Bool
  deriving DecidableEq, Repr

structure Invite where
  email : String
  organisationId : Uuid
  role : MembershipRole
  status : InviteStatus
  tokenHash : String
  expiresAt : Option Time
  revokedAt : Option Time
  revokedByUserId : Option Uuid
  updatedAt : Time
  deriving DecidableEq, Repr

/-- The verified claims of the caller. -/
structure AuthenticatedPrincipal where
  externalAuthId : String
  email : Option String
  emailVerified : Bool
  firstName : Option String
  lastName : Option String
  deriving DecidableEq, Repr

/-! ## Unique indexes -/

def Organisation.isDeleted (o : Organisation) : Bool := o.deletedAt.isSome

/-- `role = 'owner' AND is_active = true`. -/
def Membership.isActiveOwner (m : Membership) : Bool := m.isActive && m.role == .owner

inductive UserKey where
  | externalAuthId (id : String)
  deriving DecidableEq

def User.entries (u : User) : List UserKey := [.externalAuthId u.externalAuthId]

inductive OrganisationKey where
  | slugActive (slug : String)
  deriving DecidableEq

/-- `uq_organisations_slug_active`. -/
def Organisation.entries (o : Organisation) : List OrganisationKey :=
  if o.isDeleted then [] else [.slugActive o.slug]

inductive MembershipKey where
  | userActive (user : Uuid)
  | oneActiveOwner (organisation : Uuid)
  deriving DecidableEq

/-- `uq_memberships_user_id_active` and `uq_memberships_one_active_owner_per_org`. -/
def Membership.entries (m : Membership) : List MembershipKey :=
  (if m.isActive then [.userActive m.userId] else []) ++
    if m.isActiveOwner then [.oneActiveOwner m.organisationId] else []

inductive InviteKey where
  | tokenHash (hash : String)
  | pendingEmail (organisation : Uuid) (loweredEmail : String)
  deriving DecidableEq

/-- `ix_invites_token_hash` and `uq_invites_org_email_pending`. -/
def Invite.entries (text : TextOps) (i : Invite) : List InviteKey :=
  .tokenHash i.tokenHash ::
    if i.status = .pending then [.pendingEmail i.organisationId (text.sqlLower i.email)] else []

/-! ## Anonymised invites -/

def scrubbedInviteEmailDomain : String := "anonymous.invalid"

def scrubbedInviteTokenPrefix : String := "scrubbed-invite"

def scrubbedInviteEmail (id : Uuid) : String :=
  s!"deleted-invite-{id}@{scrubbedInviteEmailDomain}"

def scrubbedInviteTokenHash (id : Uuid) : String := s!"{scrubbedInviteTokenPrefix}:{id}"

def isScrubbedInvite (i : Invite) : Bool :=
  endsWith i.email s!"@{scrubbedInviteEmailDomain}" &&
    startsWith i.tokenHash s!"{scrubbedInviteTokenPrefix}:"

theorem endsWith_scrubbedInviteEmail (id : Uuid) :
    endsWith (scrubbedInviteEmail id) s!"@{scrubbedInviteEmailDomain}" = true := by
  have tail : scrubbedInviteEmail id =
      s!"deleted-invite-{id}" ++ s!"@{scrubbedInviteEmailDomain}" := String.append_assoc
  rw [tail]
  exact endsWith_append _ _

theorem startsWith_scrubbedInviteTokenHash (id : Uuid) :
    startsWith (scrubbedInviteTokenHash id) s!"{scrubbedInviteTokenPrefix}:" = true :=
  startsWith_append _ _

theorem isScrubbedInvite_of_tombstones {i : Invite} {id : Uuid}
    (email : i.email = scrubbedInviteEmail id) (token : i.tokenHash = scrubbedInviteTokenHash id) :
    isScrubbedInvite i = true := by
  rw [isScrubbedInvite, email, token, endsWith_scrubbedInviteEmail,
    startsWith_scrubbedInviteTokenHash]
  rfl

/-! ## Data for concrete runs -/

def exampleUser (name : String) : User := ⟨name, none, true, none, none, true, .active⟩

end SaasTemplate.Tenancy
