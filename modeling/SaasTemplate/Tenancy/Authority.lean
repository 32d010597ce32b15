import Mathlib.Logic.Relation
import SaasTemplate.Tenancy.AuthoritySteps

/-! # Tenants: where admins come from

Operations follow each other, each as one step. Every admin goes back to an owner: through a
change of role, an invite that the owner has created, or the replacement of the owner. An
operation of anybody else leaves owners and admins alone, and none reaches beyond its
organisation.
-/

namespace SaasTemplate.Tenancy

open SaasTemplate.Isolation

variable {text : TextOps} {start b c d db db' : Rows} {op : TenantOp}

/-- The operation runs alone and commits. -/
def TenantOp.Commits (text : TextOps) (op : TenantOp) (db db' : Rows) : Prop :=
  ∃ u, (machine Unit text).solo () (op.program text) db = some (.ok u, db')

theorem TenantOp.Commits.leaves (h : op.Commits text db db') : Leaves text db db' op := by
  obtain ⟨u, ends⟩ := h
  exact op.ends u db' ends

/-- An operation, or time goes by. -/
def TenantStep (text : TextOps) (db db' : Rows) : Prop :=
  (∃ op : TenantOp, op.Commits text db db') ∨ ∃ clock, db' = { db with clock }

abbrev TenantRun (text : TextOps) : Rows → Rows → Prop := Relation.ReflTransGen (TenantStep text)

/-! ## Authority -/

/-- The user is an owner of the organisation. -/
def IsOwner (db : Rows) (organisation user : Uuid) : Prop :=
  ∃ m, MemberAs db organisation user m ∧ m.role = .owner

/-- The member who acts, with the organisation. Whoever accepts an invite or creates an
    organisation is no member yet; the replacement of an owner is up to the platform. -/
def TenantOp.actor : TenantOp → Option (Uuid × Uuid)
  | .createInvite request => some (request.actorUserId, request.organisationId)
  | .resendInvite request _ | .revokeInvite request =>
      some (request.actorUserId, request.organisationId)
  | .changeRole request _ | .removeMembership request =>
      some (request.actorUserId, request.organisationId)
  | .acceptInvite _ | .createOrganisation _ _ _ _ | .replaceOwner _ _ _ => none

def TenantOp.isPlatform : TenantOp → Bool
  | .replaceOwner _ _ _ => true
  | _ => false

/-- An owner of the organisation acts. -/
def TenantOp.ByOwner (op : TenantOp) (db : Rows) : Prop :=
  ∃ user organisation, op.actor = some (user, organisation) ∧ IsOwner db organisation user

/-- The organisation that an operation is about. -/
def TenantOp.ActsOn (text : TextOps) (db : Rows) (organisation : Uuid) : TenantOp → Prop
  | .createInvite request => request.organisationId = organisation
  | .resendInvite request _ | .revokeInvite request => request.organisationId = organisation
  | .changeRole request _ | .removeMembership request => request.organisationId = organisation
  | .acceptInvite request => ∃ k i, db.invite k = some i ∧ i.status = .pending ∧
      i.tokenHash = text.sha256 request.token ∧ i.organisationId = organisation
  | .createOrganisation _ _ _ ids => ids.organisation = organisation
  | .replaceOwner id _ _ => id = organisation

theorem MayGrant.owner {actor : Membership} {role : MembershipRole} (h : MayGrant actor role)
    (admin : role = .admin) : actor.role = .owner := by
  cases is : actor.role with
  | owner => rfl
  | admin => exact absurd ⟨is, admin⟩ h.2
  | member => exact absurd is h.1

/-! ## Provenance -/

/-- An owner has created the invite, or it was there from the start. -/
inductive InviteGranted (text : TextOps) (start db : Rows) (k organisation : Uuid) : Prop where
  | initial (i : Invite) : start.invite k = some i → i.role = .admin → i.status = .pending →
      InviteGranted text start db k organisation
  | created (b d : Rows) (request : CreateInviteCall) : TenantRun text start b →
      (TenantOp.createInvite request).Commits text b d → TenantRun text d db →
      request.newInviteId = k → request.role = .admin → request.organisationId = organisation →
      IsOwner b organisation request.actorUserId → InviteGranted text start db k organisation

/-- An owner has made the member an admin, or it was one from the start. -/
inductive AdminGranted (text : TextOps) (start db : Rows) (id organisation : Uuid) : Prop where
  | initial (m : Membership) : start.membership id = some m → m.role = .admin →
      m.isActive = true → AdminGranted text start db id organisation
  | roleChange (b d : Rows) (request : MembershipCall) : TenantRun text start b →
      (TenantOp.changeRole request .admin).Commits text b d → TenantRun text d db →
      request.membershipId = id → request.organisationId = organisation →
      IsOwner b organisation request.actorUserId → AdminGranted text start db id organisation
  | invite (b d : Rows) (request : AcceptInviteCall) (k : Uuid) (i : Invite) :
      TenantRun text start b → (TenantOp.acceptInvite request).Commits text b d →
      TenantRun text d db → request.newMembershipId = id → b.invite k = some i →
      i.tokenHash = text.sha256 request.token → i.role = .admin →
      InviteGranted text start b k organisation → AdminGranted text start db id organisation
  | replacement (b d : Rows) (next : Uuid) (m : Membership) : TenantRun text start b →
      (TenantOp.replaceOwner organisation id next).Commits text b d → TenantRun text d db →
      b.membership id = some m → m.role = .owner → m.isActive = true →
      AdminGranted text start db id organisation

theorem InviteGranted.later {k organisation : Uuid} (h : InviteGranted text start c k organisation)
    (step : TenantStep text c d) : InviteGranted text start d k organisation := by
  cases h with
  | initial i there role pending => exact .initial i there role pending
  | created b e request before commits after is role inside owner =>
      exact .created b e request before commits (after.tail step) is role inside owner

theorem AdminGranted.later {id organisation : Uuid} (h : AdminGranted text start c id organisation)
    (step : TenantStep text c d) : AdminGranted text start d id organisation := by
  cases h with
  | initial m there role active => exact .initial m there role active
  | roleChange b e request before commits after is inside owner =>
      exact .roleChange b e request before commits (after.tail step) is inside owner
  | invite b e request k i before commits after is there hash role granted =>
      exact .invite b e request k i before commits (after.tail step) is there hash role granted
  | replacement b e next m before commits after there role active =>
      exact .replacement b e next m before commits (after.tail step) there role active

/-- Every admin, and every pending invite for one, goes back to an owner. -/
structure Provenance (text : TextOps) (start db : Rows) : Prop where
  admins : ∀ id m, db.membership id = some m → m.isActive = true → m.role = .admin →
    AdminGranted text start db id m.organisationId
  invites : ∀ k i, db.invite k = some i → i.status = .pending → i.role = .admin →
    InviteGranted text start db k i.organisationId

/-- The row of an updated table. -/
theorem update_cases {ρ : Type} {f g : Uuid → Option ρ} {k id : Uuid} {row new : ρ}
    (is : g = Function.update f k (some new)) (here : g id = some row) :
    id = k ∧ row = new ∨ id ≠ k ∧ f id = some row := by
  subst is
  by_cases same : id = k
  · subst same
    exact .inl ⟨rfl, by simpa using here.symm⟩
  · exact .inr ⟨same, by simpa [Function.update_of_ne same] using here⟩

theorem Provenance.step (h : Provenance text start c) (run : TenantRun text start c)
    (commits : op.Commits text c d) : Provenance text start d := by
  have step : TenantStep text c d := .inl ⟨op, commits⟩
  have admins : ∀ id m, c.membership id = some m → m.isActive = true → m.role = .admin →
      AdminGranted text start d id m.organisationId :=
    fun id m here active role => (h.admins id m here active role).later step
  have invites : ∀ k i, c.invite k = some i → i.status = .pending → i.role = .admin →
      InviteGranted text start d k i.organisationId :=
    fun k i here pending role => (h.invites k i here pending role).later step
  cases commits.leaves with
  | createInvite request actor invite member may role inside fresh memberships written =>
      refine ⟨memberships ▸ admins, fun k i here pending admin => ?_⟩
      rcases update_cases written here with ⟨rfl, rfl⟩ | ⟨-, before⟩
      · have authority := may.owner (role.symm.trans admin)
        exact .created c d request run commits .refl rfl (role.symm.trans admin) inside.symm
          (inside ▸ ⟨actor, member, authority⟩)
      · exact invites k i before pending admin
  | resendInvite request token actor invite next member may there inside pending role org
      memberships written =>
      refine ⟨memberships ▸ admins, fun k i here waits admin => ?_⟩
      rcases update_cases written here with ⟨rfl, rfl⟩ | ⟨-, before⟩
      · rw [org]
        exact invites _ invite there pending (role.symm.trans admin)
      · exact invites k i before waits admin
  | revokeInvite request actor invite next member may there inside status role org memberships
      written =>
      refine ⟨memberships ▸ admins, fun k i here pending admin => ?_⟩
      rcases update_cases written here with ⟨rfl, rfl⟩ | ⟨-, before⟩
      · cases status.symm.trans pending
      · exact invites k i before pending admin
  | acceptInvite request k user invite next there pending hash status role org fresh written
      joined =>
      refine ⟨fun id m here active admin => ?_, fun j i here waits admin => ?_⟩
      · rcases update_cases joined here with ⟨rfl, rfl⟩ | ⟨-, before⟩
        · exact .invite c d request k invite run commits .refl rfl there hash admin
            (h.invites k invite there pending admin)
        · exact admins id m before active admin
      · rcases update_cases written here with ⟨rfl, rfl⟩ | ⟨-, before⟩
        · cases status.symm.trans waits
        · exact invites j i before waits admin
  | changeRole request role actor target member authority there inside notOwner new same written =>
      refine ⟨fun id m here active admin => ?_, same ▸ invites⟩
      rcases update_cases written here with ⟨rfl, rfl⟩ | ⟨-, before⟩
      · cases (show role = .admin from admin)
        exact .roleChange c d request run commits .refl rfl inside.symm
          (inside.symm ▸ ⟨actor, member, authority⟩)
      · exact admins id m before active admin
  | removeMembership request actor target member may there inside same written =>
      refine ⟨fun id m here active admin => ?_, same ▸ invites⟩
      rcases update_cases written here with ⟨rfl, rfl⟩ | ⟨-, before⟩
      · cases active
      · exact admins id m before active admin
  | createOrganisation identity name slug ids user fresh same written =>
      refine ⟨fun id m here active admin => ?_, same ▸ invites⟩
      rcases update_cases written here with ⟨rfl, rfl⟩ | ⟨-, before⟩
      · cases admin
      · exact admins id m before active admin
  | replaceOwner organisation source replacement owner next differ there isOwner active inside
      nextThere nextInside same written =>
      refine ⟨fun id m here lives admin => ?_, same ▸ invites⟩
      rcases update_cases written here with ⟨rfl, rfl⟩ | ⟨-, middle⟩
      · cases admin
      · rcases update_cases rfl middle with ⟨rfl, rfl⟩ | ⟨-, before⟩
        · subst inside
          exact .replacement c d replacement owner run commits .refl there isOwner active
        · exact admins id m before lives admin

theorem TenantRun.provenance (run : TenantRun text start db) : Provenance text start db := by
  induction run with
  | refl =>
      exact ⟨fun id m here active role => .initial m here role active,
        fun k i here pending role => .initial i here role pending⟩
  | @tail c d run step ih =>
      rcases step with ⟨op, commits⟩ | ⟨clock, rfl⟩
      · exact ih.step run commits
      · have step : TenantStep text c { c with clock } := .inr ⟨clock, rfl⟩
        exact ⟨fun id m here active role => (ih.admins id m here active role).later step,
          fun k i here pending role => (ih.invites k i here pending role).later step⟩

/-! ## What others leave alone -/

/-- No invite for an admin is new or renewed, and owners and admins stay as they are. -/
structure LeavesAuthority (db db' : Rows) : Prop where
  invites : ∀ k i, db'.invite k = some i → i.role = .admin → i.status = .pending →
    db.invite k = some i
  memberships : ∀ k m, db.membership k = some m → m.isActive = true → m.role ≠ .member →
    db'.membership k = some m

/-- A row that is not the one written stays. -/
theorem kept_of_update {ρ : Type} {f g : Uuid → Option ρ} {k id : Uuid} {row new : ρ}
    (is : g = Function.update f k (some new)) (here : f id = some row) (other : id ≠ k) :
    g id = some row := by
  rw [is, Function.update_of_ne other, here]

theorem TenantOp.Commits.leavesAuthority (h : op.Commits text db db')
    (tenant : op.isPlatform = false) (other : ¬op.ByOwner db) : LeavesAuthority db db' := by
  cases h.leaves with
  | createInvite request actor invite member may role inside fresh memberships written =>
      refine ⟨fun k i here admin pending => ?_, fun k m here _ _ => memberships ▸ here⟩
      rcases update_cases written here with ⟨rfl, rfl⟩ | ⟨-, before⟩
      · exact absurd ⟨_, _, rfl, actor, member, may.owner (role.symm.trans admin)⟩ other
      · exact before
  | resendInvite request token actor invite next member may there inside pending role org
      memberships written =>
      refine ⟨fun k i here admin _ => ?_, fun k m here _ _ => memberships ▸ here⟩
      rcases update_cases written here with ⟨rfl, rfl⟩ | ⟨-, before⟩
      · exact absurd ⟨_, _, rfl, actor, member, may.owner (role.symm.trans admin)⟩ other
      · exact before
  | revokeInvite request actor invite next member may there inside status role org memberships
      written =>
      refine ⟨fun k i here admin pending => ?_, fun k m here _ _ => memberships ▸ here⟩
      rcases update_cases written here with ⟨rfl, rfl⟩ | ⟨-, before⟩
      · cases status.symm.trans pending
      · exact before
  | acceptInvite request k user invite next there pending hash status role org fresh written
      joined =>
      refine ⟨fun j i here admin waits => ?_, fun j m here _ _ => kept_of_update joined here ?_⟩
      · rcases update_cases written here with ⟨rfl, rfl⟩ | ⟨-, before⟩
        · cases status.symm.trans waits
        · exact before
      · rintro rfl
        cases fresh.symm.trans here
  | changeRole request role actor target member authority =>
      exact absurd ⟨_, _, rfl, actor, member, authority⟩ other
  | removeMembership request actor target member may there inside same written =>
      refine ⟨fun k i here _ _ => same ▸ here, fun k m here _ role =>
        kept_of_update written here ?_⟩
      rintro rfl
      cases there.symm.trans here
      rcases may.2 with owner | ⟨-, plain⟩
      · exact other ⟨_, _, rfl, actor, member, owner⟩
      · exact role plain
  | createOrganisation identity name slug ids user fresh same written =>
      refine ⟨fun k i here _ _ => same ▸ here, fun k m here _ _ => kept_of_update written here ?_⟩
      rintro rfl
      cases fresh.symm.trans here
  | replaceOwner => cases tenant

/-- Rows of other organisations are the same. -/
def OnlyOf {ρ : Type} (organisationOf : ρ → Uuid) (organisation : Uuid)
    (f g : Uuid → Option ρ) : Prop :=
  ∀ k row, organisationOf row ≠ organisation → (g k = some row ↔ f k = some row)

section Frame

variable {ρ : Type} {organisationOf : ρ → Uuid} {organisation k : Uuid} {f g e : Uuid → Option ρ}

theorem onlyOf_same (is : g = f) : OnlyOf organisationOf organisation f g := fun k row _ => by
  rw [is]

theorem OnlyOf.trans (first : OnlyOf organisationOf organisation f g)
    (second : OnlyOf organisationOf organisation g e) : OnlyOf organisationOf organisation f e :=
  fun k row outside => (second k row outside).trans (first k row outside)

/-- A row of the organisation, written over another of its rows or where none was. -/
theorem onlyOf_update {new : ρ} (is : g = Function.update f k (some new))
    (inside : organisationOf new = organisation)
    (before : ∀ row, f k = some row → organisationOf row = organisation) :
    OnlyOf organisationOf organisation f g := by
  intro j row outside
  subst is
  by_cases same : j = k
  · subst same
    rw [Function.update_self]
    constructor
    · rintro ⟨⟩
      exact absurd inside outside
    · exact fun here => absurd (before row here) outside
  · rw [Function.update_of_ne same]

end Frame

/-- The operation is about one organisation and leaves the rows of all others alone. -/
def TenantOp.StaysInside (text : TextOps) (op : TenantOp) (db db' : Rows) : Prop :=
  ∃ organisation, op.ActsOn text db organisation ∧
    OnlyOf Membership.organisationId organisation db.membership db'.membership ∧
    OnlyOf Invite.organisationId organisation db.invite db'.invite

theorem TenantOp.Commits.staysInside (h : op.Commits text db db') :
    op.StaysInside text db db' := by
  cases h.leaves with
  | createInvite request actor invite member may role inside fresh memberships written =>
      refine ⟨_, rfl, onlyOf_same memberships, onlyOf_update written inside fun row here => ?_⟩
      cases fresh.symm.trans here
  | resendInvite request token actor invite next member may there inside pending role org
      memberships written =>
      refine ⟨_, rfl, onlyOf_same memberships, onlyOf_update written (org.trans inside) ?_⟩
      intro row here
      cases there.symm.trans here
      exact inside
  | revokeInvite request actor invite next member may there inside status role org memberships
      written =>
      refine ⟨_, rfl, onlyOf_same memberships, onlyOf_update written (org.trans inside) ?_⟩
      intro row here
      cases there.symm.trans here
      exact inside
  | acceptInvite request k user invite next there pending hash status role org fresh written
      joined =>
      refine ⟨invite.organisationId, ⟨k, invite, there, pending, hash, rfl⟩,
        onlyOf_update joined rfl ?_, onlyOf_update written org ?_⟩
      · intro row here
        cases fresh.symm.trans here
      · intro row here
        cases there.symm.trans here
        rfl
  | changeRole request role actor target member authority there inside notOwner new same written =>
      refine ⟨_, rfl, onlyOf_update written inside fun row here => ?_, onlyOf_same same⟩
      cases there.symm.trans here
      exact inside
  | removeMembership request actor target member may there inside same written =>
      refine ⟨_, rfl, onlyOf_update written inside fun row here => ?_, onlyOf_same same⟩
      cases there.symm.trans here
      exact inside
  | createOrganisation identity name slug ids user fresh same written =>
      refine ⟨_, rfl, onlyOf_update written rfl fun row here => ?_, onlyOf_same same⟩
      cases fresh.symm.trans here
  | replaceOwner organisation source replacement owner next differ there isOwner active inside
      nextThere nextInside same written =>
      refine ⟨organisation, rfl, OnlyOf.trans (onlyOf_update rfl ?_ fun row here => ?_)
        (onlyOf_update written ?_ fun row here => ?_), onlyOf_same same⟩
      · exact inside
      · cases there.symm.trans here
        exact inside
      · exact nextInside
      · rw [Function.update_of_ne differ.symm] at here
        cases nextThere.symm.trans here
        exact nextInside

/-- User 1 owns organisation 5, and user 2 is a member of it. -/
def exampleTenant : Rows where
  users := .ofRows [(1, exampleUser "owner"), (2, exampleUser "member")]
  organisations := .ofRows [(5, ⟨"five", "five", none, .active⟩)]
  memberships := .ofRows [(10, .new 1 5 .owner), (11, .new 2 5 .member)]
  invites := .ofRows []
  clock := 0

end SaasTemplate.Tenancy
