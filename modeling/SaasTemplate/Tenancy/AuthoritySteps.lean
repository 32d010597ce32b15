import SaasTemplate.Tenancy.AloneStatements

/-! # Tenants: what one operation does to memberships and invites

An operation that commits has passed its checks, on the rows it started with, and has then
written one or two rows. `Leaves` says which operation may write what, on whose authority.
-/

set_option linter.unusedSectionVars false

namespace SaasTemplate.Tenancy

open SaasTemplate.Isolation SaasTemplate.Isolation.Prog SaasTemplate.Isolation.Machine

/-- A tenant operation. -/
inductive TenantOp where
  | createInvite (request : CreateInviteCall)
  | resendInvite (request : InviteCall) (token : String)
  | revokeInvite (request : InviteCall)
  | acceptInvite (request : AcceptInviteCall)
  | changeRole (request : MembershipCall) (role : MembershipRole)
  | removeMembership (request : MembershipCall)
  | createOrganisation (identity : AuthenticatedPrincipal) (name slug : String)
      (ids : OnboardingIds)
  | replaceOwner (organisationId sourceId replacementId : Uuid)

/-- The operation, without its result. -/
def TenantOp.program (text : TextOps) : TenantOp → Tx Unit
  | .createInvite request => do let _ ← Tenancy.createInvite text request
  | .resendInvite request token => do let _ ← Tenancy.resendInvite text request token
  | .revokeInvite request => Tenancy.revokeInvite request
  | .acceptInvite request => do let _ ← Tenancy.acceptInvite text request
  | .changeRole request role => do let _ ← changeMembershipRole request role
  | .removeMembership request => do let _ ← Tenancy.removeMembership request
  | .createOrganisation identity name slug ids => do
      let _ ← createOrganisationForCurrentUser text identity name slug ids
  | .replaceOwner organisationId sourceId replacementId => do
      let _ ← replaceOwnerMembership organisationId sourceId replacementId

/-- An actor whose role lets it deal with invites for `role`. -/
def MayGrant (actor : Membership) (role : MembershipRole) : Prop :=
  actor.role ≠ .member ∧ ¬(actor.role = .admin ∧ role = .admin)

/-- An actor whose role lets it remove a membership with `role`. -/
def MayRemove (actor : Membership) (role : MembershipRole) : Prop :=
  role ≠ .owner ∧ (actor.role = .owner ∨ actor.role = .admin ∧ role = .member)

/-- What an operation that commits has written, and on which rows it went by. -/
inductive Leaves (text : TextOps) (db db' : Rows) : TenantOp → Prop where
  | createInvite (request : CreateInviteCall) (actor : Membership) (invite : Invite) :
      MemberAs db request.organisationId request.actorUserId actor → MayGrant actor request.role →
      invite.role = request.role → invite.organisationId = request.organisationId →
      db.invite request.newInviteId = none → db'.membership = db.membership →
      db'.invite = Function.update db.invite request.newInviteId (some invite) →
      Leaves text db db' (.createInvite request)
  | resendInvite (request : InviteCall) (token : String) (actor : Membership)
      (invite next : Invite) :
      MemberAs db request.organisationId request.actorUserId actor → MayGrant actor invite.role →
      db.invite request.inviteId = some invite → invite.organisationId = request.organisationId →
      invite.status = .pending → next.role = invite.role →
      next.organisationId = invite.organisationId → db'.membership = db.membership →
      db'.invite = Function.update db.invite request.inviteId (some next) →
      Leaves text db db' (.resendInvite request token)
  | revokeInvite (request : InviteCall) (actor : Membership) (invite next : Invite) :
      MemberAs db request.organisationId request.actorUserId actor → MayGrant actor invite.role →
      db.invite request.inviteId = some invite → invite.organisationId = request.organisationId →
      next.status = .revoked → next.role = invite.role →
      next.organisationId = invite.organisationId → db'.membership = db.membership →
      db'.invite = Function.update db.invite request.inviteId (some next) →
      Leaves text db db' (.revokeInvite request)
  | acceptInvite (request : AcceptInviteCall) (inviteId user : Uuid) (invite next : Invite) :
      db.invite inviteId = some invite → invite.status = .pending →
      invite.tokenHash = text.sha256 request.token → next.status = .accepted →
      next.role = invite.role → next.organisationId = invite.organisationId →
      db.membership request.newMembershipId = none →
      db'.invite = Function.update db.invite inviteId (some next) →
      db'.membership = Function.update db.membership request.newMembershipId
        (some (.new user invite.organisationId invite.role)) →
      Leaves text db db' (.acceptInvite request)
  | changeRole (request : MembershipCall) (role : MembershipRole) (actor target : Membership) :
      MemberAs db request.organisationId request.actorUserId actor → actor.role = .owner →
      db.membership request.membershipId = some target →
      target.organisationId = request.organisationId → target.role ≠ .owner → role ≠ .owner →
      db'.invite = db.invite →
      db'.membership = Function.update db.membership request.membershipId
        (some { target with role }) →
      Leaves text db db' (.changeRole request role)
  | removeMembership (request : MembershipCall) (actor target : Membership) :
      MemberAs db request.organisationId request.actorUserId actor → MayRemove actor target.role →
      db.membership request.membershipId = some target →
      target.organisationId = request.organisationId → db'.invite = db.invite →
      db'.membership = Function.update db.membership request.membershipId
        (some { target with isActive := false }) →
      Leaves text db db' (.removeMembership request)
  | createOrganisation (identity : AuthenticatedPrincipal) (name slug : String)
      (ids : OnboardingIds) (user : Uuid) : db.membership ids.membership = none →
      db'.invite = db.invite →
      db'.membership = Function.update db.membership ids.membership
        (some (.new user ids.organisation .owner)) →
      Leaves text db db' (.createOrganisation identity name slug ids)
  | replaceOwner (organisation source replacement : Uuid) (owner next : Membership) :
      source ≠ replacement → db.membership source = some owner → owner.role = .owner →
      owner.isActive = true → owner.organisationId = organisation →
      db.membership replacement = some next → next.organisationId = organisation →
      db'.invite = db.invite →
      db'.membership = Function.update (Function.update db.membership source
        (some { owner with role := .admin })) replacement (some { next with role := .owner }) →
      Leaves text db db' (.replaceOwner organisation source replacement)

variable {text : TextOps} {db : Rows}

/-- A change of a member after its checks: the limiter, the row and the audit event. -/
theorem ends_limitedWrite {id : Uuid} {change : Membership → Membership} {write : Tx Unit}
    {target answer : Membership} (seen : db.membership id = some target)
    (writes : ∀ db, Ends text write (fun _ db' => ∃ m, db.membership id = some m ∧
      db'.membership = Function.update db.membership id (some (change m)) ∧
      db'.invite = db.invite) db) :
    Ends text (do
      sql .rateLimit
      write
      sql .recordAuditEvent
      pure answer) (fun _ db' => ∀ db'', SameRows db' db'' → db''.invite = db.invite ∧
        db''.membership = Function.update db.membership id (some (change target))) db := by
  refine (ends_sql rfl).bind fun _ db₁ limited => ?_
  refine (writes db₁).bind fun _ db₂ ⟨m, here, memberships, invites⟩ => ?_
  refine (ends_sql rfl).bind fun _ db₃ audited => ensures_pure fun db' committed => ?_
  have same := audited.trans committed
  rw [limited.memberships] at here memberships
  cases seen.symm.trans here
  exact ⟨same.invites.trans (invites.trans limited.invites), same.memberships.trans memberships⟩

theorem ends_changeRole (request : MembershipCall) (role : MembershipRole) :
    Ends text (changeMembershipRole request role)
      (fun _ db' => Leaves text db db' (.changeRole request role)) db := by
  refine ends_ensureAuditActorMatches.bind fun _ _ is => ?_
  subst is
  refine ends_inTransaction ((ends_actorAndTarget request).bind ?_)
  rintro ⟨actor, target⟩ _ ⟨rfl, member, seen, inside, active⟩
  refine ensures_bind (ensures_raiseIf fun notOwner => ?_)
  refine ensures_bind (ensures_raiseIf fun targetOwner => ?_)
  refine ensures_bind (ensures_raiseIf fun actorOwner => ?_)
  refine ensures_bind (ensures_raiseIf fun _ => ?_)
  refine Machine.Ensures.mono (ends_limitedWrite seen fun _ => ends_stmt fun _ _ h =>
    updateMembership_rows h) ?_
  intro _ _ written db' committed
  obtain ⟨invites, memberships⟩ := written db' committed
  exact .changeRole request role actor target member (not_not.mp actorOwner) seen inside targetOwner
    notOwner invites memberships

/-- What the checks of `_remove_membership` leave. -/
theorem mayRemove_of_checks {actor target : Membership} (targetOwner : target.role ≠ .owner)
    (adminOnly : ¬(actor.role = .admin ∧ target.role ≠ .member))
    (privileged : ¬(actor.role ≠ .owner ∧ actor.role ≠ .admin)) : MayRemove actor target.role := by
  refine ⟨targetOwner, ?_⟩
  cases role : actor.role with
  | owner => exact .inl rfl
  | admin => exact .inr ⟨rfl, not_not.mp fun other => adminOnly ⟨role, other⟩⟩
  | member => exact absurd ⟨by simp [role], by simp [role]⟩ privileged

theorem ends_removeMembership (request : MembershipCall) :
    Ends text (removeMembership request)
      (fun _ db' => Leaves text db db' (.removeMembership request)) db := by
  refine ends_ensureAuditActorMatches.bind fun _ _ is => ?_
  subst is
  refine ends_inTransaction ((ends_actorAndTarget request).bind ?_)
  rintro ⟨actor, target⟩ _ ⟨rfl, member, seen, inside, active⟩
  refine ensures_bind (ensures_raiseIf fun targetOwner => ?_)
  refine ensures_bind (ensures_raiseIf fun adminOnly => ?_)
  refine ensures_bind (ensures_raiseIf fun privileged => ?_)
  have may := mayRemove_of_checks targetOwner adminOnly privileged
  refine Machine.Ensures.mono (ends_limitedWrite seen fun _ => ends_stmt fun _ _ h =>
    updateMembership_rows h) ?_
  intro _ _ written db' committed
  obtain ⟨invites, memberships⟩ := written db' committed
  exact .removeMembership request actor target member may seen inside invites memberships

/-! ## Invites -/

theorem ends_createInvite (request : CreateInviteCall) :
    Ends text (createInvite text request)
      (fun _ db' => Leaves text db db' (.createInvite request)) db := by
  refine ends_ensureAuditActorMatches.bind fun _ _ is => ?_
  subst is
  refine ends_inTransaction (ensures_bind (ensures_raiseIf fun notOwner => ?_))
  refine (ends_getActorMembership _ _).bind fun actor _ ⟨is, member⟩ => ?_
  subst is
  refine ensures_bind (ensures_raiseIf fun notMember => ?_)
  refine ensures_bind (ensures_raiseIf fun notAdmin => ?_)
  refine (ends_sql rfl).bind fun pending db₁ looked => ensures_bind (ensures_raiseIf fun _ => ?_)
  refine (ends_sql rfl).bind fun _ db₂ limited => (ends_sql rfl).bind fun now db₃ timed => ?_
  have before := (looked.trans limited).trans timed
  refine ensures_bind (ends_onIntegrityError (ends_stmt fun _ db₄ written => ?_))
  obtain ⟨fresh, invites, memberships⟩ := insertInvite_rows written
  refine (ends_sql rfl).bind fun _ db₅ audited => (ends_sql rfl).bind fun _ db₆ published => ?_
  refine ensures_pure fun db' committed => ?_
  have same := (audited.trans published).trans committed
  rw [before.invites] at fresh invites
  exact .createInvite request actor _ member ⟨notMember, notAdmin⟩ rfl rfl fresh
    (same.memberships.trans (memberships.trans before.memberships)) (same.invites.trans invites)

theorem ends_pendingInviteForActor (request : InviteCall) (a b c : AppError) :
    Ends text (pendingInviteForActor request a b c) (fun invite db' => db' = db ∧
      db.invite request.inviteId = some invite ∧
      invite.organisationId = request.organisationId ∧ invite.status = .pending ∧
      ∃ actor, MemberAs db request.organisationId request.actorUserId actor ∧
        MayGrant actor invite.role) db := by
  refine (ends_getActorMembership _ _).bind fun actor _ ⟨is, member⟩ => ?_
  subst is
  refine ensures_bind (ends_stmt fun found _ h => ?_)
  obtain ⟨rfl, rfl⟩ := read_ok h
  refine ensures_bind (ensures_orRaise fun invite is => ?_)
  obtain ⟨seen, inside⟩ := Option.filter_eq_some_iff.mp is
  refine ensures_bind (ensures_raiseIf fun pending => ?_)
  refine ensures_bind (ensures_raiseIf fun notMember => ?_)
  refine ensures_bind (ensures_raiseIf fun notAdmin => ?_)
  exact ensures_pure ⟨rfl, seen, beq_iff_eq.mp inside, not_not.mp pending, actor, member,
    notMember, notAdmin⟩

theorem ends_revokeInvite (request : InviteCall) :
    Ends text (revokeInvite request)
      (fun _ db' => Leaves text db db' (.revokeInvite request)) db := by
  refine ends_ensureAuditActorMatches.bind fun _ _ is => ?_
  subst is
  refine ends_inTransaction ((ends_pendingInviteForActor request _ _ _).bind ?_)
  rintro invite _ ⟨rfl, seen, inside, -, actor, member, may⟩
  refine (ends_sql rfl).bind fun now db₁ timed => ?_
  refine ensures_bind (ends_stmt fun answer db₂ written => ?_)
  refine ensures_bind (ensures_raiseIf fun found => ?_)
  rcases updateInvite_rows written with ⟨rfl, -⟩ | ⟨i, here, -, -, memberships, invites⟩
  · exact absurd rfl found
  refine (ends_sql rfl).mono fun _ db₃ audited db' committed => ?_
  have same := audited.trans committed
  rw [timed.invites] at here invites
  cases seen.symm.trans here
  refine .revokeInvite request actor invite _ member may seen inside ?_ ?_ ?_
    (same.memberships.trans (memberships.trans timed.memberships)) (same.invites.trans invites) <;>
      rfl

theorem ends_refuseExpired {α : Type} (request : InviteCall) (now : Time)
    {Q : α → Rows → Prop} : Ends text (refuseExpired request now) Q db :=
  ensures_bind (ends_stmt fun _ _ _ => ensures_raise)

theorem ends_refuseIfExpired (request : InviteCall) (invite : Invite) (now : Time) :
    Ends text (refuseIfExpired request invite now) (fun _ db' => db' = db) db := by
  unfold refuseIfExpired
  split
  · exact ends_refuseExpired request now
  · exact ensures_pure rfl

theorem ends_resendInvite (request : InviteCall) (token : String) :
    Ends text (resendInvite text request token)
      (fun _ db' => Leaves text db db' (.resendInvite request token)) db := by
  refine ends_ensureAuditActorMatches.bind fun _ _ is => ?_
  subst is
  refine ends_inTransaction ((ends_pendingInviteForActor request _ _ _).bind ?_)
  rintro invite _ ⟨rfl, seen, inside, pending, actor, member, may⟩
  refine (ends_sql rfl).bind fun now db₁ timed => ?_
  refine (ends_refuseIfExpired request invite now).bind fun _ _ is => ?_
  subst is
  refine (ends_sql rfl).bind fun _ db₂ limited => (ends_sql rfl).bind fun now db₃ again => ?_
  refine (ends_refuseIfExpired request invite now).bind fun _ _ is => ?_
  subst is
  have before := (timed.trans limited).trans again
  refine ensures_bind (ends_stmt fun answer db₄ written => ?_)
  rcases updateInvite_rows written with ⟨rfl, -⟩ | ⟨i, here, -, rfl, memberships, invites⟩
  · exact ensures_bind (ends_stmt fun now db₅ _ => ends_refuseExpired request now)
  refine (ends_sql rfl).bind fun _ db₅ audited => (ends_sql rfl).bind fun _ db₆ published => ?_
  refine ensures_pure fun db' committed => ?_
  have same := (audited.trans published).trans committed
  rw [before.invites] at here invites
  cases seen.symm.trans here
  refine .resendInvite request token actor invite _ member may seen inside pending ?_ ?_
    (same.memberships.trans (memberships.trans before.memberships)) (same.invites.trans invites) <;>
      rfl

/-! ## New memberships -/

theorem quiet_leavesRows (s : Statement) (h : s.isQuiet = true) : s.leavesRows = true :=
  Statement.leavesRows_of_isQuiet h

theorem writesUser_leavesRows (s : Statement) (h : s.writesUser = true) : s.leavesRows = true := by
  cases s <;> first | rfl | cases h

theorem ends_createMembership (user organisation : Uuid) (role : MembershipRole) (id : Uuid) :
    Ends text (createMembership user organisation role id) (fun _ db' =>
      db.membership id = none ∧ db'.invite = db.invite ∧ db'.membership =
        Function.update db.membership id (some (.new user organisation role))) db := by
  refine (ends_sql rfl).bind fun existing db₁ looked => ?_
  refine ensures_bind (ensures_raiseIf fun _ => ends_onIntegrityError ?_)
  refine ensures_bind (ends_stmt fun _ db₂ written => ?_)
  obtain ⟨fresh, memberships, invites⟩ := insertMembership_rows written
  refine (ends_leavesRows (ensureExactlyOneActiveOwner_only quiet_leavesRows _)).bind
    fun _ db₃ counted => ensures_pure ?_
  rw [looked.memberships] at fresh memberships
  exact ⟨fresh, counted.invites.trans (invites.trans looked.invites),
    counted.memberships.trans memberships⟩

theorem acceptPending_rows {hash : String} {now : Time} {answer : Option (Uuid × Invite)}
    {db' : Rows}
    (h : exec text () (.acceptPendingByTokenHash hash now) db = some (.ok answer, db')) :
    answer = none ∨ ∃ k i next, answer = some (k, next) ∧ db.invite k = some i ∧
      i.tokenHash = hash ∧ i.status = .pending ∧ next.status = .accepted ∧ next.role = i.role ∧
      next.organisationId = i.organisationId ∧ db'.membership = db.membership ∧
      db'.invite = Function.update db.invite k (some next) := by
  simp only [exec, updateInviteByTokenHash] at h
  split at h
  · cases h
    exact .inl rfl
  · rename_i k _ _
    obtain ⟨⟨r, db''⟩, updated, is⟩ := Option.map_eq_some_iff.mp h
    cases r with
    | error e => cases is
    | ok found =>
        cases is
        rcases updateInvite_rows updated with ⟨rfl, -⟩ | ⟨i, seen, holds, rfl, memberships, invites⟩
        · exact .inl rfl
        · simp only [Bool.and_eq_true, beq_iff_eq, isPending_iff] at holds
          exact .inr ⟨k, i, _, rfl, seen, holds.1, holds.2.1, rfl, rfl, rfl, memberships, invites⟩

theorem ends_acceptInvite (request : AcceptInviteCall) :
    Ends text (acceptInvite text request)
      (fun _ db' => Leaves text db db' (.acceptInvite request)) db := by
  refine ends_inTransaction ((ends_sql rfl).bind fun now db₁ timed => ?_)
  refine ensures_bind (ends_stmt fun answer db₂ written => ?_)
  rcases acceptPending_rows written with
    rfl | ⟨k, i, next, rfl, seen, hash, pending, accepted, role, inside, memberships, invites⟩
  · exact ensures_bind (ends_stmt fun _ _ _ => ensures_raise)
  refine ensures_bind (ensures_raiseIf fun _ => ensures_bind (ensures_raiseIf fun _ => ?_))
  refine (ends_leavesRows (getOrCreateCurrentUser_only quiet_leavesRows
    writesUser_leavesRows _ _)).bind fun user db₃ known => ?_
  refine ensures_bind (ensures_raiseIf fun _ => ?_)
  refine (ends_getOrganisation _).bind fun organisation _ is => ?_
  subst is
  refine ensures_bind (ensures_raiseIf fun _ => ?_)
  refine (ends_createMembership _ _ _ _).mono fun _ db₄ ⟨fresh, kept, joined⟩ db' committed => ?_
  rw [known.memberships, memberships, timed.memberships] at fresh joined
  rw [known.invites, invites, timed.invites] at kept
  rw [timed.invites] at seen
  refine .acceptInvite request k user.1 i next seen pending hash accepted role inside fresh
    (committed.invites.trans kept) ?_
  rw [committed.memberships, joined, role, inside]

theorem ends_createOrganisation (name slug : String) (id : Uuid) :
    Ends text (createOrganisation text name slug id)
      (fun row db' => row.1 = id ∧ SameRows db db') db := by
  refine (ends_leavesRows (only_bind only_raiseIf fun _ => only_pure _)).bind
    fun name db₁ first => ?_
  refine (ends_leavesRows (only_bind only_raiseIf fun _ => only_bind only_raiseIf fun _ =>
    only_pure _)).bind fun slug db₂ second => ?_
  refine (ends_sql rfl).bind fun existing db₃ third => ?_
  refine ensures_bind (ensures_raiseIf fun _ => ends_onIntegrityError ?_)
  refine (ends_sql rfl).bind fun _ db₄ fourth => ensures_pure ⟨rfl, ?_⟩
  exact ((first.trans second).trans third).trans fourth

theorem ends_createOrganisationForCurrentUser (identity : AuthenticatedPrincipal)
    (name slug : String) (ids : OnboardingIds) :
    Ends text (createOrganisationForCurrentUser text identity name slug ids)
      (fun _ db' => Leaves text db db' (.createOrganisation identity name slug ids)) db := by
  refine ends_inTransaction ((ends_leavesRows (getOrCreateCurrentUser_only quiet_leavesRows
    writesUser_leavesRows _ _)).bind fun user db₁ known => ?_)
  refine ensures_bind (ensures_raiseIf fun _ => ensures_bind (ensures_raiseIf fun _ => ?_))
  refine (ends_sql rfl).bind fun existing db₂ looked => ensures_bind (ensures_raiseIf fun _ => ?_)
  refine (ends_createOrganisation name slug ids.organisation).bind ?_
  rintro ⟨organisation, _⟩ db₃ ⟨rfl, made⟩
  refine (ends_createMembership _ _ _ _).bind fun _ db₄ ⟨fresh, kept, joined⟩ => ?_
  refine (ends_leavesRows (markOnboardingCompleted_only writesUser_leavesRows _ _)).bind
    fun _ db₅ marked => ensures_pure fun db' committed => ?_
  have before := (known.trans looked).trans made
  have same := marked.trans committed
  rw [before.memberships] at fresh joined
  exact .createOrganisation identity name slug ids user.1 fresh
    (same.invites.trans (kept.trans before.invites)) (same.memberships.trans joined)

/-! ## The owner -/

/-- The rows that a lock over the members of an organisation returns. -/
theorem ends_lockActiveMemberships (organisation : Uuid) :
    Ends text (lockActiveMemberships organisation) (fun rows db' => SameRows db db' ∧
      ∀ row ∈ rows, db.membership row.1 = some row.2 ∧
        row.2.organisationId = organisation ∧ row.2.isActive = true) db := by
  have loop : ∀ ids (db₁ : Rows), SameRows db db₁ →
      Ends text (collect ids fun id => do
        let row ← sql (.lockActiveMembership id organisation)
        pure (row.map fun m => (id, m))) (fun rows db' => SameRows db db' ∧
          ∀ row ∈ rows, db.membership row.1 = some row.2 ∧
            row.2.organisationId = organisation ∧ row.2.isActive = true) db₁ := by
    intro ids
    induction ids with
    | nil => exact fun db₁ same => ensures_pure ⟨same, nofun⟩
    | cons id rest ih =>
        intro db₁ same
        refine ensures_bind (ensures_bind (ends_stmt fun found db₂ h => ensures_pure ?_))
        have kept := same.trans (exec_leavesRows rfl h)
        refine (ih db₂ kept).bind fun rows db₃ ⟨after, all⟩ => ensures_pure ⟨after, ?_⟩
        intro row member
        rcases List.mem_append.mp member with mine | others
        · obtain ⟨⟨out, T⟩, locked, is⟩ := Option.map_eq_some_iff.mp h
          cases is
          rcases Table.lockRow_cases locked with ⟨-, rfl, -⟩ | ⟨m, seen, holds, -, -, rfl⟩
          · cases mine
          · simp only [Option.map_some, Option.toList_some, List.mem_singleton] at mine
            subst mine
            simp only [Bool.and_eq_true, beq_iff_eq] at holds
            exact ⟨same.memberships ▸ seen, holds⟩
        · exact all row others
  refine (ends_sql rfl).bind fun ids db₁ same => loop ids db₁ same

theorem ends_replaceOwner (organisation source replacement : Uuid) :
    Ends text (replaceOwnerMembership organisation source replacement)
      (fun _ db' => Leaves text db db' (.replaceOwner organisation source replacement)) db := by
  refine ensures_bind (ensures_raiseIf fun differ => ends_inTransaction ?_)
  refine (ends_lockActiveMemberships organisation).bind fun rows db₁ ⟨same, all⟩ => ?_
  refine ensures_bind (ensures_orRaise fun owner found => ?_)
  refine ensures_bind (ensures_orRaise fun next found' => ?_)
  refine ensures_bind (ensures_raiseIf fun isOwner => ensures_bind (ensures_raiseIf fun _ => ?_))
  refine ensures_bind (ends_stmt fun _ db₂ first => ensures_bind (ends_stmt fun _ db₃ second => ?_))
  obtain ⟨m, here, memberships, invites⟩ := updateMembership_rows first
  obtain ⟨m', here', memberships', invites'⟩ := updateMembership_rows second
  refine (ends_leavesRows (ensureExactlyOneActiveOwner_only quiet_leavesRows _)).bind
    fun _ db₄ counted => ensures_pure fun db' committed => ?_
  have after := counted.trans committed
  obtain ⟨isThere, inside, active⟩ := all _ (Table.lookup_mem found)
  obtain ⟨nextThere, nextInside, -⟩ := all _ (Table.lookup_mem found')
  rw [same.memberships] at here memberships
  cases isThere.symm.trans here
  rw [memberships, Function.update_of_ne (fun is => differ is.symm)] at here'
  cases nextThere.symm.trans here'
  refine .replaceOwner organisation source replacement owner next differ isThere
    (not_not.mp isOwner) active inside nextThere nextInside ?_ ?_
  · rw [after.invites, invites', invites, same.invites]
  · rw [after.memberships, memberships', memberships]

theorem TenantOp.ends (op : TenantOp) :
    Ends text (op.program text) (fun _ db' => Leaves text db db' op) db := by
  have dropped : ∀ {α : Type} {p : Tx α} {Q : Rows → Prop}, Ends text p (fun _ => Q) db →
      Ends text (p >>= fun _ => pure ()) (fun _ => Q) db :=
    fun h => h.bind fun _ _ held => ensures_pure held
  cases op with
  | createInvite request => exact dropped (ends_createInvite request)
  | resendInvite request token => exact dropped (ends_resendInvite request token)
  | revokeInvite request => exact ends_revokeInvite request
  | acceptInvite request => exact dropped (ends_acceptInvite request)
  | changeRole request role => exact dropped (ends_changeRole request role)
  | removeMembership request => exact dropped (ends_removeMembership request)
  | createOrganisation identity name slug ids =>
      exact dropped (ends_createOrganisationForCurrentUser identity name slug ids)
  | replaceOwner organisation source replacement =>
      exact dropped (ends_replaceOwner organisation source replacement)

end SaasTemplate.Tenancy
