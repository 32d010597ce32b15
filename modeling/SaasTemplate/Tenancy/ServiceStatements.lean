import SaasTemplate.Isolation.Runs
import SaasTemplate.Tenancy.InviteServices

/-! # Tenants: which statements a service issues

For each service function that others build on, the statements it may issue. A
property of all quiet statements (those that write no row) is assumed once.
-/

namespace SaasTemplate.Tenancy

open SaasTemplate.Isolation SaasTemplate.Isolation.Prog

variable {P : Statement → Prop} {α : Type}

theorem onIntegrityError_only {body handler : Tx α} (first : body.Only P) (second : handler.Only P) :
    (onIntegrityError body handler).Only P :=
  only_handle first fun e => by
    split
    · exact second
    · trivial

section Reads

variable (reads : ∀ s : Statement, s.isQuiet = true → s ≠ .rateLimit → P s)
include reads

theorem getUserById_reads (id : Uuid) : (getUserById id).Only P :=
  only_bind (only_stmt.mpr (reads _ rfl nofun)) fun _ => only_orRaise

theorem getOrganisation_reads (id : Uuid) : (getOrganisation id).Only P :=
  only_bind (only_stmt.mpr (reads _ rfl nofun)) fun _ => only_orRaise

theorem getMembershipForOrganisation_reads (id organisation : Uuid) :
    (getMembershipForOrganisation id organisation).Only P :=
  only_bind (only_stmt.mpr (reads _ rfl nofun)) fun _ => only_orRaise

theorem actorAndTarget_reads (call : MembershipCall) : (actorAndTarget call).Only P := by
  refine only_bind (getUserById_reads reads _) fun _ => ?_
  refine only_bind only_raiseIf fun _ => ?_
  refine only_bind (getOrganisation_reads reads _) fun _ => ?_
  refine only_bind only_raiseIf fun _ => ?_
  refine only_bind (only_stmt.mpr (reads _ rfl nofun)) fun _ => ?_
  refine only_bind only_orRaise fun _ => ?_
  exact only_bind (getMembershipForOrganisation_reads reads _ _) fun _ => only_pure _

theorem getActorMembership_reads (organisation actor : Uuid) :
    (getActorMembership organisation actor).Only P := by
  refine only_bind (getUserById_reads reads _) fun _ => ?_
  refine only_bind only_raiseIf fun _ => ?_
  refine only_bind (getOrganisation_reads reads _) fun _ => ?_
  refine only_bind only_raiseIf fun _ => ?_
  refine only_bind (only_stmt.mpr (reads _ rfl nofun)) fun _ => ?_
  exact only_bind only_orRaise fun _ => only_pure _

theorem pendingInviteForActor_reads (call : InviteCall) (a b c : AppError) :
    (pendingInviteForActor call a b c).Only P := by
  refine only_bind (getActorMembership_reads reads _ _) fun _ => ?_
  refine only_bind (only_stmt.mpr (reads _ rfl nofun)) fun _ => ?_
  refine only_bind only_orRaise fun _ => ?_
  refine only_bind only_raiseIf fun _ => ?_
  refine only_bind only_raiseIf fun _ => ?_
  exact only_bind only_raiseIf fun _ => only_pure _

end Reads

section Quiet

variable (quiet : ∀ s : Statement, s.isQuiet = true → P s)
include quiet

theorem sql_only {s : Statement} (h : s.isQuiet = true) : (sql s).Only P :=
  only_stmt.mpr (quiet s h)

theorem getUserById_only (id : Uuid) : (getUserById id).Only P :=
  getUserById_reads (fun s h _ => quiet s h) id

theorem getOrganisation_only (id : Uuid) : (getOrganisation id).Only P :=
  getOrganisation_reads (fun s h _ => quiet s h) id

theorem ensureExactlyOneActiveOwner_only (id : Uuid) : (ensureExactlyOneActiveOwner id).Only P :=
  only_bind (sql_only quiet rfl) fun _ => only_raiseIf

theorem getMembershipForOrganisation_only (id organisation : Uuid) :
    (getMembershipForOrganisation id organisation).Only P :=
  getMembershipForOrganisation_reads (fun s h _ => quiet s h) id organisation

theorem actorAndTarget_only (call : MembershipCall) : (actorAndTarget call).Only P :=
  actorAndTarget_reads (fun s h _ => quiet s h) call

theorem getActorMembership_only (organisation actor : Uuid) :
    (getActorMembership organisation actor).Only P :=
  getActorMembership_reads (fun s h _ => quiet s h) organisation actor

theorem pendingInviteForActor_only (call : InviteCall) (a b c : AppError) :
    (pendingInviteForActor call a b c).Only P :=
  pendingInviteForActor_reads (fun s h _ => quiet s h) call a b c

theorem insertMembership_only {id : Uuid} {m : Membership} (inserts : P (.insertMembership id m)) :
    (insertMembership id m).Only P :=
  only_bind (only_stmt.mpr inserts) fun _ =>
    only_bind (ensureExactlyOneActiveOwner_only quiet _) fun _ => only_pure _

theorem createMembership_only {user organisation : Uuid} {role : MembershipRole} {id : Uuid}
    (inserts : P (.insertMembership id (.new user organisation role))) :
    (createMembership user organisation role id).Only P :=
  only_bind (sql_only quiet rfl) fun _ => only_bind only_raiseIf fun _ =>
    onIntegrityError_only (insertMembership_only quiet inserts) (only_raise _)

section Users

variable (users : ∀ s : Statement, s.writesUser = true → P s)
include users

theorem getOrCreateCurrentUser_only (identity : AuthenticatedPrincipal) (newUserId : Uuid) :
    (getOrCreateCurrentUser identity newUserId).Only P := by
  refine only_bind (sql_only quiet rfl) fun existing => ?_
  cases existing with
  | none =>
      exact onIntegrityError_only (only_bind (only_stmt.mpr (users _ rfl)) fun _ => only_pure _)
        (only_bind (sql_only quiet rfl) fun _ => only_orRaise)
  | some row =>
      show (refreshCurrentUserProfile row.1 row.2 identity).Only P
      unfold refreshCurrentUserProfile
      split
      · exact only_pure _
      · exact onIntegrityError_only
          (only_bind (only_stmt.mpr (users _ rfl)) fun _ => only_pure _) (only_raise _)

omit quiet in
theorem markOnboardingCompleted_only (id : Uuid) (user : User) :
    (markOnboardingCompleted id user).Only P := by
  unfold markOnboardingCompleted
  split
  · exact only_pure _
  · exact only_stmt.mpr (users _ rfl)

theorem acceptFoundInvite_only {text : TextOps} {call : AcceptInviteCall} {invite : Invite}
    (inserts : ∀ user, P (.insertMembership call.newMembershipId
      (.new user invite.organisationId invite.role))) :
    (acceptFoundInvite text call invite).Only P := by
  refine only_bind only_raiseIf fun _ => ?_
  refine only_bind only_raiseIf fun _ => ?_
  refine only_bind (getOrCreateCurrentUser_only quiet users _ _) fun user => ?_
  refine only_bind only_raiseIf fun _ => ?_
  refine only_bind (getOrganisation_only quiet _) fun _ => ?_
  exact only_bind only_raiseIf fun _ => createMembership_only quiet (inserts _)

end Users

theorem createOrganisation_only {text : TextOps} {name slug : String} {id : Uuid}
    (inserts : ∀ o, P (.insertOrganisation id o)) :
    (createOrganisation text name slug id).Only P := by
  refine only_bind (only_bind only_raiseIf fun _ => only_pure _) fun _ => ?_
  refine only_bind (only_bind only_raiseIf fun _ => only_bind only_raiseIf fun _ => only_pure _)
    fun _ => ?_
  refine only_bind (sql_only quiet rfl) fun _ => ?_
  refine only_bind only_raiseIf fun _ => ?_
  exact onIntegrityError_only (only_bind (only_stmt.mpr (inserts _)) fun _ => only_pure _)
    (only_raise _)

/-! ## The invite operations -/

section Invites

variable (outside : ¬P .commit) {text : TextOps}

omit quiet in
theorem inTransaction_transactional {body : Tx α} (outside : ¬P .commit) (inner : body.Only P) :
    (inTransaction body).Transactional .commit .rollback P := transactional nofun outside inner

include outside

theorem createInvite_transactional {request : CreateInviteCall}
    (inserts : ∀ i, i.status = .pending → i.tokenHash = text.sha256 request.token →
      P (.insertInvite request.newInviteId i)) :
    (createInvite text request).Transactional .commit .rollback P := by
  apply Transactional.checked
  apply inTransaction_transactional outside
  apply only_bind only_raiseIf
  intro _
  apply only_bind (getActorMembership_only quiet _ _)
  intro actor
  apply only_bind only_raiseIf
  intro _
  apply only_bind only_raiseIf
  intro _
  apply only_bind (sql_only quiet rfl)
  intro existing
  apply only_bind only_raiseIf
  intro _
  apply only_bind (sql_only quiet rfl)
  intro _
  apply only_bind (sql_only quiet rfl)
  intro now
  refine only_bind (onIntegrityError_only (only_stmt.mpr (inserts _ rfl rfl)) (only_raise _))
    fun _ => ?_
  apply only_bind (sql_only quiet rfl)
  intro _
  exact only_bind (sql_only quiet rfl) fun _ => only_pure _

theorem acceptInvite_transactional {request : AcceptInviteCall}
    (users : ∀ s : Statement, s.writesUser = true → P s)
    (accepts : ∀ now, P (.acceptPendingByTokenHash (text.sha256 request.token) now))
    (expires : ∀ now, P (.expirePendingByTokenHash (text.sha256 request.token) now))
    (inserts : ∀ m, P (.insertMembership request.newMembershipId m)) :
    (acceptInvite text request).Transactional .commit .rollback P := by
  apply inTransaction_transactional outside
  apply only_bind (sql_only quiet rfl)
  intro now
  refine only_bind (only_stmt.mpr (accepts now)) fun found => ?_
  cases found with
  | none => exact only_bind (only_stmt.mpr (expires now)) fun _ => only_raise _
  | some row => exact acceptFoundInvite_only quiet users fun _ => inserts _

theorem revokeInvite_transactional {request : InviteCall}
    (revokes : ∀ now, P (.revokePending request.inviteId request.organisationId
      request.actorUserId now)) :
    (revokeInvite request).Transactional .commit .rollback P := by
  apply Transactional.checked
  apply inTransaction_transactional outside
  apply only_bind (pendingInviteForActor_only quiet _ _ _ _)
  intro invite
  apply only_bind (sql_only quiet rfl)
  intro now
  refine only_bind (only_stmt.mpr (revokes now)) fun updated => ?_
  exact only_bind only_raiseIf fun _ => sql_only quiet rfl

omit quiet outside in
theorem refuseIfExpired_only {request : InviteCall} {invite : Invite} {now : Time}
    (expires : P (.expirePendingById request.inviteId request.organisationId now)) :
    (refuseIfExpired request invite now).Only P := by
  unfold refuseIfExpired
  split
  · exact only_bind (only_stmt.mpr expires) fun _ => only_raise _
  · exact only_pure _

theorem resendInvite_transactional {request : InviteCall} {token : String}
    (expires : ∀ now, P (.expirePendingById request.inviteId request.organisationId now))
    (rotates : ∀ until_ now, P (.rotatePendingToken request.inviteId request.organisationId
      (text.sha256 token) until_ now)) :
    (resendInvite text request token).Transactional .commit .rollback P := by
  apply Transactional.checked
  apply inTransaction_transactional outside
  apply only_bind (pendingInviteForActor_only quiet _ _ _ _)
  intro invite
  apply only_bind (sql_only quiet rfl)
  intro now
  apply only_bind (refuseIfExpired_only (expires now))
  intro _
  apply only_bind (sql_only quiet rfl)
  intro _
  apply only_bind (sql_only quiet rfl)
  intro now
  apply only_bind (refuseIfExpired_only (expires now))
  intro _
  refine only_bind (only_stmt.mpr (rotates _ now)) fun rotated => ?_
  cases rotated with
  | none =>
      apply only_bind (sql_only quiet rfl)
      intro retryNow
      exact only_bind (only_stmt.mpr (expires retryNow)) fun _ => only_raise _
  | some row =>
      apply only_bind (sql_only quiet rfl)
      intro _
      exact only_bind (sql_only quiet rfl) fun _ => only_pure _

theorem expireInDelivery_transactional {invite : Uuid}
    (expires : ∀ organisation now, P (.expirePendingById invite organisation now)) :
    (expireInDelivery invite).Transactional .commit .rollback P := by
  apply inTransaction_transactional outside
  apply only_bind (sql_only quiet rfl)
  intro found
  cases found with
  | none => exact only_pure _
  | some row =>
      show (if row.status ≠ .pending then _ else _ : Tx Unit).Only _
      split
      · exact only_pure _
      · apply only_bind (sql_only quiet rfl)
        intro now
        exact only_bind (only_stmt.mpr (expires _ now)) fun _ => only_pure _

theorem anonymiseCompletedInvites_transactional {retention : InviteRetention}
    (scrubs : ∀ id, P (.scrubInvite id)) :
    (anonymiseCompletedInvites retention).Transactional .commit .rollback P := by
  apply inTransaction_transactional outside
  apply only_bind (sql_only quiet rfl)
  intro now
  apply only_bind (sql_only quiet rfl)
  intro rows
  exact only_bind (only_forEach fun row _ => only_stmt.mpr (scrubs row.1)) fun _ => only_pure _

end Invites

end Quiet

end SaasTemplate.Tenancy
