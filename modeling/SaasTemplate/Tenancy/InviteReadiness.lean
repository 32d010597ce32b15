import SaasTemplate.Tenancy.InviteAcceptance

/-! # Invite operations are ready when they commit

`accept_invite` takes its invite first and holds it to the end, then settles on a user
and prepares the membership. The other operations never write an accepted invite.
-/

set_option linter.unusedSectionVars false

namespace SaasTemplate.Tenancy

open SaasTemplate.Isolation SaasTemplate.Isolation.Prog

variable {τ : Type} [DecidableEq τ] {text : TextOps} {op : τ → InviteOp} {t : τ} {db db' : Db τ}
  {i uid : Uuid} {old row : Invite}

/-! ## The invite that is being accepted -/

/-- The transaction holds invite `i`, which was `old`, with its own version `row`. -/
structure Taken (t : τ) (i : Uuid) (old row : Invite) (db : Db τ) : Prop where
  only : db.invites.HoldsOnly t i
  held : db.invites.holder i = some t
  was : db.invites.committed i = some old
  mine : db.invites.pending i = some row

theorem taken_stable : (acceptanceContract text op).Stable t (Taken t i old row) := by
  intro db db' h moved _
  have cell := moved.stays.invites.keeps.cell h.held
  exact ⟨moved.stays.invites.keeps.holdsOnly h.only, moved.stays.invites.keeps.held_iff.mpr h.held,
    (Table.committed_of_cell cell).trans h.was, (Table.pending_of_cell cell).trans h.mine⟩

/-- `row` is the accepted version of `old`, a pending invite with this token. -/
structure AcceptedVersion (text : TextOps) (token : String) (old row : Invite) : Prop where
  pending : old.status = .pending
  token : old.tokenHash = text.sha256 token
  accepted : ∃ now, row = { old with status := .accepted, updatedAt := now }

theorem acceptPending_taken {token : String} {now : Time} (none : db.invites.HoldsNone t)
    (executed : exec text t (.acceptPendingByTokenHash (text.sha256 token) now) db =
      some (.ok (some (i, row)), db')) :
    db'.users = db.users ∧ db'.memberships = db.memberships ∧
      ∃ old, AcceptedVersion text token old row ∧ Taken t i old row db' := by
  simp only [exec, updateInviteByTokenHash] at executed
  split at executed
  · cases executed
  · obtain ⟨⟨r, db''⟩, written, same⟩ := Option.map_eq_some_iff.mp executed
    obtain ⟨T, updated, rfl⟩ := onInvites_eq written
    rcases Table.update_cases updated with
      ⟨rfl, rfl | ⟨rfl, -⟩⟩ | ⟨old, new, seen, changed, -, rfl, rfl⟩
    · cases same
    · cases same
    · cases same
      unfold updateIf at changed
      split at changed
      · rename_i matched
        cases changed
        simp only [Bool.and_eq_true, isPending_iff, beq_iff_eq] at matched
        rw [none.view] at seen
        exact ⟨rfl, rfl, old, ⟨matched.2.1, matched.1, _, rfl⟩,
          (none.only _).put _, by simp, by simpa using seen, by simp⟩
      · cases changed

/-! ## The membership that is being created -/

/-- The transaction has prepared a new membership and holds no other. -/
structure Prepared (t : τ) (k : Uuid) (m : Membership) (db : Db τ) : Prop where
  only : db.memberships.HoldsOnly t k
  held : db.memberships.holder k = some t
  fresh : db.memberships.committed k = none
  mine : db.memberships.pending k = some m

theorem prepared_stable {k : Uuid} {m : Membership} :
    (acceptanceContract text op).Stable t (Prepared t k m) := by
  intro db db' h moved _
  have cell := moved.stays.memberships.keeps.cell h.held
  exact ⟨moved.stays.memberships.keeps.holdsOnly h.only, moved.stays.memberships.keeps.held_iff.mpr h.held,
    (Table.committed_of_cell cell).trans h.fresh, (Table.pending_of_cell cell).trans h.mine⟩

theorem insertMembership_prepared {k : Uuid} {m : Membership} {a : Unit}
    (none : db.memberships.HoldsNone t)
    (executed : exec text t (.insertMembership k m) db = some (.ok a, db')) :
    db' = { db with memberships := db.memberships.put t k (some m) } ∧ Prepared t k m db' := by
  simp only [exec] at executed
  split at executed
  · obtain ⟨T, inserted, rfl⟩ := onMemberships_eq executed
    rcases Table.insert_cases inserted with ⟨-, failed⟩ | ⟨fresh, -, rfl, -⟩
    · cases failed
    · rw [none.view] at fresh
      exact ⟨rfl, (none.only k).put _, by simp, by simpa using fresh, by simp⟩
  · cases executed

/-- The unique index: a user who is a member already gets no second membership. -/
theorem Prepared.not_isMember {k organisation : Uuid} {role : MembershipRole}
    (h : Prepared t k (.new uid organisation role) db) (lawful : db.Lawful text) :
    ¬IsMember uid db := by
  rintro ⟨j, m, here, user, active⟩
  have differ : j ≠ k := by
    rintro rfl
    simp [h.fresh] at here
  have clash : Table.Clash Membership.entries (db.memberships.committed j)
      (db.memberships.pending k) := by
    refine ⟨m, _, .userActive uid, here, h.mine, ?_, ?_⟩
    · simp [Membership.entries, active, user]
    · simp [Membership.entries, Membership.new]
  exact differ (h.only j ((lawful.memberships.unique.handover differ clash).trans h.held))

/-! ## Accepting -/

/-- Everything an acceptance rests on, right before its commit. -/
structure Accepting (text : TextOps) (request : AcceptInviteCall) (t : τ) (i : Uuid)
    (old row : Invite) (uid : Uuid) (db : Db τ) : Prop where
  version : AcceptedVersion text request.token old row
  verified : request.identity.emailVerified = true
  email : ∃ email, request.identity.email = some email ∧ text.lower old.email = text.lower email
  taken : Taken t i old row db
  user : UserOf t request.identity uid db
  prepared : Prepared t request.newMembershipId (.new uid old.organisationId old.role) db

theorem accepting_stable {request : AcceptInviteCall} :
    (acceptanceContract text op).Stable t (Accepting text request t i old row uid) :=
  fun db db' h moved lawful => ⟨h.version, h.verified, h.email,
    taken_stable db db' h.taken moved lawful, userOf_stable db db' h.user moved lawful,
    prepared_stable db db' h.prepared moved lawful⟩

theorem Accepting.accepts {request : AcceptInviteCall} (lawful : db.Lawful text)
    (h : Accepting text request t i old row uid db) :
    Accepts text request i old uid db (db.commit t) := by
  obtain ⟨now, accepted⟩ := h.version.accepted
  obtain ⟨user, seen, projects⟩ := h.user.2.resolve_right (h.prepared.not_isMember lawful)
  refine
    { was := h.taken.was, pending := h.version.pending, token := h.version.token
      accepted := ⟨now, ?_⟩, verified := h.verified, email := h.email
      user := ⟨user, ?_, projects⟩, fresh := h.prepared.fresh, membership := ?_
      otherInvites := fun j other => h.taken.only.committed_commit other
      otherMemberships := fun k other => h.prepared.only.committed_commit other }
  · simpa [Db.commit, Table.view_of_held h.taken.held, ← accepted] using h.taken.mine
  · simpa [Db.commit] using seen
  · simpa [Db.commit, Table.view_of_held h.prepared.held] using h.prepared.mine

theorem Accepting.membersStay {request : AcceptInviteCall} (lawful : db.Lawful text)
    (h : Accepting text request t i old row uid db) : MembersStay t db (db.commit t) := by
  have accepts := h.accepts lawful
  refine ⟨fun k m here => ?_, fun other => ?_⟩
  · by_cases same : k = request.newMembershipId
    · subst same
      simp [accepts.fresh] at here
    · exact (accepts.otherMemberships k same).trans here
  · by_cases same : other = uid
    · subst same
      exact .inr ⟨_, _, accepts.membership, rfl, rfl⟩
    · exact .inl (h.user.1.committed_commit same)

theorem createMembership_accepting {request : AcceptInviteCall}
    (version : AcceptedVersion text request.token old row)
    (verified : request.identity.emailVerified = true)
    (email : ∃ email, request.identity.email = some email ∧ text.lower old.email = text.lower email) :
    Triple (machine τ text) (acceptanceContract text op) t
      (fun db => (Taken t i old row db ∧ db.memberships.HoldsNone t) ∧ UserOf t request.identity uid db)
      (createMembership uid row.organisationId row.role request.newMembershipId)
      fun _ db => ∃ i old row uid, Accepting text request t i old row uid db := by
  have noMembership : (acceptanceContract text op).Stable t fun db => db.memberships.HoldsNone t :=
    fun db db' none moved _ => moved.stays.memberships.keeps.holdsNone none
  have stable : (acceptanceContract text op).Stable t fun db =>
      (Taken t i old row db ∧ db.memberships.HoldsNone t) ∧ UserOf t request.identity uid db :=
    (taken_stable.and noMembership).and userOf_stable
  refine (triple_quiet stable (sql_only (fun _ h => h) rfl)).bind fun existing => ?_
  refine (triple_quiet stable only_raiseIf).bind fun _ => ?_
  refine Triple.handle_raise ?_ fun e => by split <;> exact ⟨_, rfl⟩
  have inserts : Triple (machine τ text) (acceptanceContract text op) t
      (fun db => (Taken t i old row db ∧ db.memberships.HoldsNone t) ∧
        UserOf t request.identity uid db)
      (sql (.insertMembership request.newMembershipId (.new uid row.organisationId row.role)))
      fun _ => Accepting text request t i old row uid := by
    refine triple_sql stable nofun ?_
    rintro db a db' ⟨⟨taken, none⟩, user⟩ - - executed
    obtain ⟨rfl, prepared⟩ := insertMembership_prepared none executed
    obtain ⟨now, rfl⟩ := version.accepted
    exact ⟨version, verified, email, ⟨taken.only, taken.held, taken.was, taken.mine⟩,
      ⟨user.1, user.2.imp_right fun ⟨k, m, here, rest⟩ => ⟨k, m, by simpa using here, rest⟩⟩,
      prepared⟩
  refine inserts.bind fun _ => ?_
  refine (triple_quiet accepting_stable (ensureExactlyOneActiveOwner_only (fun _ h => h) _)).bind
    fun _ => ?_
  exact .pure fun db h => ⟨i, old, row, uid, h⟩

theorem acceptFoundInvite_accepting {request : AcceptInviteCall}
    (version : AcceptedVersion text request.token old row) :
    Triple (machine τ text) (acceptanceContract text op) t
      (fun db => (Taken t i old row db ∧ db.memberships.HoldsNone t) ∧ db.users.HoldsNone t)
      (acceptFoundInvite text request row)
      fun _ db => ∃ i old row uid, Accepting text request t i old row uid db := by
  have quiet : ∀ s : Statement, s.isQuiet = true → s.isQuiet = true := fun _ h => h
  have framed : Framed text op t fun db => Taken t i old row db ∧ db.memberships.HoldsNone t :=
    ⟨taken_stable.and fun db db' none moved _ => moved.stays.memberships.keeps.holdsNone none,
      fun db T h => ⟨⟨h.1.only, h.1.held, h.1.was, h.1.mine⟩, h.2⟩⟩
  refine Triple.raiseIf.bind fun _ => Triple.assume fun matches_ => ?_
  refine Triple.raiseIf.bind fun _ => Triple.assume fun verified => ?_
  refine (getOrCreateCurrentUser_triple framed request.newUserId).bind fun user => ?_
  have stable : (acceptanceContract text op).Stable t fun db =>
      (Taken t i old row db ∧ db.memberships.HoldsNone t) ∧ UserOf t request.identity user.1 db :=
    framed.stable.and userOf_stable
  refine (triple_quiet stable only_raiseIf).bind fun _ => ?_
  refine (triple_quiet stable (getOrganisation_only quiet _)).bind fun _ => ?_
  refine (triple_quiet stable only_raiseIf).bind fun _ => ?_
  refine createMembership_accepting version (by simpa using verified) ?_
  obtain ⟨now, rfl⟩ := version.accepted
  cases given : request.identity.email with
  | none => simp [given] at matches_
  | some email => exact ⟨email, rfl, by simpa [given] using matches_⟩

theorem acceptInvite_ready (request : AcceptInviteCall) (is : op t = .accept request)
    (invites : db.invites.HoldsNone t) (users : db.users.HoldsNone t)
    (memberships : db.memberships.HoldsNone t) :
    wp (machine τ text) (acceptanceContract text op) t (acceptInvite text request)
      (fun _ _ => True) db := by
  let Idle (db : Db τ) : Prop :=
    (db.invites.HoldsNone t ∧ db.memberships.HoldsNone t) ∧ db.users.HoldsNone t
  have idle_stable : (acceptanceContract text op).Stable t Idle := fun db db' h moved _ =>
    ⟨⟨moved.stays.invites.keeps.holdsNone h.1.1, moved.stays.memberships.keeps.holdsNone h.1.2⟩,
      moved.stays.users.keeps.holdsNone h.2⟩
  let Ready (_ : Uuid × Membership) (db : Db τ) : Prop :=
    ∃ i old row uid, Accepting text request t i old row uid db
  have ready_stable : ∀ a, (acceptanceContract text op).Stable t (Ready a) := by
    rintro _ db db' ⟨i, old, row, uid, h⟩ moved lawful
    exact ⟨i, old, row, uid, accepting_stable db db' h moved lawful⟩
  refine wp_inTransaction (A := Idle) ?_ ready_stable ?_ ⟨⟨invites, memberships⟩, users⟩
  · refine (triple_quiet idle_stable (sql_only (fun _ h => h) rfl)).bind fun now => ?_
    have takes : Triple (machine τ text) (acceptanceContract text op) t Idle
        (sql (.acceptPendingByTokenHash (text.sha256 request.token) now))
        fun out db => ∀ i row, out = some (i, row) →
          ∃ old, ((Taken t i old row db ∧ db.memberships.HoldsNone t) ∧ db.users.HoldsNone t) ∧
            AcceptedVersion text request.token old row := by
      refine triple_sql idle_stable nofun ?_
      rintro db out db' ⟨⟨none, memberships⟩, users⟩ - - executed i row rfl
      obtain ⟨sameUsers, sameMemberships, old, version, taken⟩ := acceptPending_taken none executed
      exact ⟨old, ⟨⟨taken, by rwa [sameMemberships]⟩, by rwa [sameUsers]⟩, version⟩
    refine takes.bind fun out => ?_
    cases out with
    | none =>
        refine Triple.bind (B := fun _ _ => True) ?_ fun _ => .raise
        refine Triple.weaken (A := fun _ => True) (triple_sql (fun _ _ _ _ _ => trivial) nofun
          fun _ _ _ _ _ _ _ => trivial) (fun _ _ => trivial) fun _ _ h => h
    | some found =>
        refine Triple.weaken (Triple.exists fun old => Triple.assume fun version =>
          acceptFoundInvite_accepting version) (fun db h => h found.1 found.2 rfl) fun _ _ h => h
  · rintro _ db ⟨i, old, row, uid, h⟩ lawful
    refine ⟨?_, h.membersStay lawful⟩
    simp only [is, InviteOp.Ready]
    exact ⟨i, old, uid, h.accepts lawful⟩

/-! ## The operations that accept nothing -/

/-- Statements that write no user and no membership and accept no invite. -/
def Statement.acceptsNothing : Statement → Bool
  | .insertInvite _ invite => invite.status != .accepted
  | .expirePendingByTokenHash _ _ | .revokePending _ _ _ _ | .rotatePendingToken _ _ _ _ _
  | .expirePendingById _ _ _ | .scrubInvite _ => true
  | s => s.isQuiet

theorem acceptsNothing_spares {s : Statement} (h : s.acceptsNothing = true) :
    s.writesUser = false ∧ s.membershipTarget = none := by
  cases s <;> simp_all [Statement.acceptsNothing, Statement.isQuiet, Statement.writesUser,
    Statement.membershipTarget]

/-- Every accepted invite among the transaction's own versions was accepted before. -/
structure Unaccepting (t : τ) (db : Db τ) : Prop where
  users : db.users.HoldsNone t
  memberships : db.memberships.HoldsNone t
  invites : ∀ k row, db.invites.holder k = some t → db.invites.pending k = some row →
    row.status = .accepted → CommittedStatus db k .accepted

theorem unaccepting_stable : (acceptanceContract text op).Stable t (Unaccepting t) := by
  intro db db' h moved _
  refine ⟨moved.stays.users.keeps.holdsNone h.users, moved.stays.memberships.keeps.holdsNone h.memberships,
    fun k row held here accepted => ?_⟩
  obtain ⟨before, same⟩ := moved.stays.invites.keeps.cell_of_held held
  obtain ⟨old, was, status⟩ := h.invites k row before ((Table.pending_of_cell same).symm.trans here)
    accepted
  exact ⟨old, (Table.committed_of_cell same).trans was, status⟩

theorem Unaccepting.view (h : Unaccepting t db) {k : Uuid} (seen : db.invites.view t k = some row)
    (accepted : row.status = .accepted) : CommittedStatus db k .accepted := by
  by_cases held : db.invites.holder k = some t
  · exact h.invites k row held ((Table.view_of_held held).symm.trans seen) accepted
  · exact ⟨row, (Table.view_of_not_held held).symm.trans seen, accepted⟩

theorem InviteWrite.accepted {clock : Time} {k : Uuid} {s : Statement} {old : Option Invite}
    {new : Invite} (h : InviteWrite clock k s old new) (nothing : s.acceptsNothing = true)
    (accepted : new.status = .accepted) : ∃ row, old = some row ∧ row.status = .accepted := by
  cases h <;> simp_all [Statement.acceptsNothing, Statement.isQuiet]

theorem Unaccepting.step {s : Statement} (h : Unaccepting t db) (nothing : s.acceptsNothing = true)
    (lawful : db.Lawful text) {r : Except AppError (Answer s)}
    (executed : exec text t s db = some (r, db')) : Unaccepting t db' := by
  cases exec_case lawful executed with
  | unchanged => exact h
  | user writes => simp [(acceptsNothing_spares nothing).1] at writes
  | organisation => exact ⟨h.users, h.memberships, h.invites⟩
  | membership target => simp [(acceptsNothing_spares nothing).2] at target
  | commit is | rollback is => subst is; cases nothing
  | @invite k new ok write =>
      refine ⟨h.users, h.memberships, fun j row held here accepted => ?_⟩
      simp only [CommittedStatus, Table.committed_put]
      by_cases same : j = k
      · subst same
        obtain rfl : new = row := by simpa using here
        obtain ⟨old, seen, status⟩ := write.accepted nothing accepted
        exact h.view seen status
      · rw [Table.holder_put_other same] at held
        rw [Table.pending_put_other same] at here
        exact h.invites j row held here accepted

theorem quiet_acceptsNothing (s : Statement) (h : s.isQuiet = true) : s.acceptsNothing = true := by
  cases s <;> first | rfl | cases h

theorem triple_unaccepting {α : Type} {body : Tx α} (only : body.Only (·.acceptsNothing = true)) :
    Triple (machine τ text) (acceptanceContract text op) t (Unaccepting t) body
      fun _ => Unaccepting t :=
  triple_only unaccepting_stable nofun
    (fun _ _ _ _ nothing h lawful _ executed => h.step nothing lawful executed) only

theorem Unaccepting.rollback (h : Unaccepting t db) : Unaccepting t (db.rollback t) where
  users k held := h.users k (Table.holder_rollback_eq_some held).1
  memberships k held := h.memberships k (Table.holder_rollback_eq_some held).1
  invites k row held := by
    have released := Table.holder_rollback_eq_some held
    exact absurd released.1 released.2

theorem Unaccepting.acceptsNone (h : Unaccepting t db) : AcceptsNone db (db.commit t) where
  invites i := by
    rintro ⟨row, here, accepted⟩
    exact h.view (by simpa [Db.commit] using here) accepted
  users := h.users.committed_commit
  memberships := h.memberships.committed_commit

theorem Unaccepting.membersStay (h : Unaccepting t db) : MembersStay t db (db.commit t) :=
  membersStay_of_same h.users.committed_commit h.memberships.committed_commit

/-- An operation that accepts nothing and from which nothing else is expected. -/
theorem wp_unaccepting {p : Tx Unit} (free : ∀ db, (op t).Ready text t db ↔ AcceptsNone db (db.commit t))
    (trans : p.Transactional .commit .rollback (·.acceptsNothing = true))
    (start : Unaccepting t db) :
    wp (machine τ text) (acceptanceContract text op) t p (fun _ _ => True) db := by
  refine wp_transactional trans unaccepting_stable ?_ (fun _ h _ => ⟨(free _).mpr h.acceptsNone, h.membersStay⟩) start
  rintro s db r db' (rfl | nothing) h lawful - executed
  · cases executed
    exact h.rollback
  · exact h.step nothing lawful executed

/-! ## Resending -/

theorem rotated_stable {i : Uuid} {token : String} :
    (acceptanceContract text op).Stable t (Rotated text t i token) := by
  rintro db db' ⟨held, row, here, hash⟩ moved _
  exact ⟨moved.stays.invites.keeps.held_iff.mpr held, row,
    (Table.pending_of_cell (moved.stays.invites.keeps.cell held)).trans here, hash⟩

theorem rotatePendingToken_rotated {organisation : Uuid} {token : String} {expires now : Time}
    (executed : exec text t (.rotatePendingToken i organisation (text.sha256 token) expires now) db =
      some (.ok (some row), db')) : Rotated text t i token db' := by
  obtain ⟨T, updated, rfl⟩ := onInvites_eq executed
  rcases Table.update_cases updated with ⟨-, failed | ⟨failed, -⟩⟩ | ⟨old, new, -, changed, -, rfl, -⟩
  · cases failed
  · cases failed
  · unfold updateIf at changed
    split at changed
    · cases changed
      exact ⟨by simp, _, Table.pending_put_same t i _ _, rfl⟩
    · cases changed

theorem resendInvite_ready (request : InviteCall) (token : String)
    (is : op t = .resend request token) (start : Unaccepting t db) :
    wp (machine τ text) (acceptanceContract text op) t (resendInvite text request token)
      (fun _ _ => True) db := by
  apply Terms.wp_checked
  have quiet : ∀ {s : Statement}, s.isQuiet = true →
      Triple (machine τ text) (acceptanceContract text op) t (Unaccepting t) (sql s)
        fun _ => Unaccepting t :=
    fun h => triple_unaccepting (sql_only quiet_acceptsNothing h)
  have stable : (acceptanceContract text op).Stable t fun db =>
      Unaccepting t db ∧ Rotated text t request.inviteId token db :=
    unaccepting_stable.and rotated_stable
  refine wp_inTransaction (A := Unaccepting t) ?_ (fun _ => stable) ?_ start
  · apply (triple_unaccepting (pendingInviteForActor_only quiet_acceptsNothing _ _ _ _)).bind
    intro invite
    apply (quiet rfl).bind
    intro now
    apply (triple_unaccepting (refuseIfExpired_only rfl)).bind
    intro _
    apply (quiet rfl).bind
    intro _
    apply (quiet rfl).bind
    intro now
    apply (triple_unaccepting (refuseIfExpired_only rfl)).bind
    intro _
    have rotates : Triple (machine τ text) (acceptanceContract text op) t (Unaccepting t)
        (sql (.rotatePendingToken request.inviteId request.organisationId (text.sha256 token)
          (now + defaultInviteTtl) now))
        fun out db => Unaccepting t db ∧
          ∀ row, out = some row → Rotated text t request.inviteId token db := by
      refine triple_sql unaccepting_stable nofun fun db out db' h lawful _ executed => ?_
      refine ⟨h.step rfl lawful executed, ?_⟩
      rintro row rfl
      exact rotatePendingToken_rotated executed
    apply rotates.bind
    intro rotated
    cases rotated with
    | none =>
        refine Triple.weaken (?_ : Triple _ _ _ (Unaccepting t) _ _) (fun _ h => h.1) fun _ _ h => h
        apply (quiet rfl).bind
        intro retryNow
        apply (triple_unaccepting (only_stmt.mpr rfl)).bind
        intro _
        exact .raise
    | some row =>
        refine Triple.weaken (?_ : Triple _ _ _ (fun db => Unaccepting t db ∧
          Rotated text t request.inviteId token db) _ _) (fun _ h => ⟨h.1, h.2 row rfl⟩) fun _ _ h => h
        apply (triple_quiet stable (sql_only (fun _ h => h) rfl)).bind
        intro _
        apply (triple_quiet stable (sql_only (fun _ h => h) rfl)).bind
        intro _
        exact .pure fun _ h => h
  · intro _ db h _
    refine ⟨?_, h.1.membersStay⟩
    rw [is]
    exact ⟨h.1.acceptsNone, h.2⟩

theorem InviteOp.program_ready (invites : db.invites.HoldsNone t) (users : db.users.HoldsNone t)
    (memberships : db.memberships.HoldsNone t) :
    wp (machine τ text) (acceptanceContract text op) t ((op t).program text)
      (fun _ _ => True) db := by
  have start : Unaccepting t db := ⟨users, memberships, fun k _ held => absurd held (invites k)⟩
  have outside : ¬Statement.acceptsNothing .commit = true := by
    simp [Statement.acceptsNothing, Statement.isQuiet]
  cases is : op t with
  | create request =>
      refine wp_unaccepting (fun _ => by rw [is]; rfl)
        ((createInvite_transactional quiet_acceptsNothing outside fun i pending _ => ?_).map
          fun _ => ()) start
      simp [Statement.acceptsNothing, pending]
  | accept request => exact Terms.wp_result (acceptInvite_ready request is invites users memberships)
  | resend request token => exact Terms.wp_result (resendInvite_ready request token is start)
  | revoke request =>
      exact wp_unaccepting (fun _ => by rw [is]; rfl)
        (revokeInvite_transactional quiet_acceptsNothing outside fun _ => rfl) start
  | expireInDelivery invite =>
      exact wp_unaccepting (fun _ => by rw [is]; rfl)
        (expireInDelivery_transactional quiet_acceptsNothing outside fun _ _ => rfl) start
  | anonymise retention =>
      exact wp_unaccepting (fun _ => by rw [is]; rfl)
        ((anonymiseCompletedInvites_transactional quiet_acceptsNothing outside fun _ => rfl).map
          fun _ => ()) start

end SaasTemplate.Tenancy
