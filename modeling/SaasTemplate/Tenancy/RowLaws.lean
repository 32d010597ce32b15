import SaasTemplate.Tenancy.Statements

/-! # Tenants: what a statement can do

Every statement of the tenant database either reads, writes one row under its lock,
or ends the transaction. `exec_case` says so once; that the rows keep their laws and
the unique indexes, and that the others' rows are left alone, follows from it.
-/

set_option linter.unusedSectionVars false

namespace SaasTemplate.Tenancy

open SaasTemplate.Isolation

/-- A user keeps its external identity. -/
def userLaw : RowLaw Uuid User := .persistent
  (fun _ u v => v.externalAuthId = u.externalAuthId) (fun _ _ => rfl)
  fun _ _ _ _ first second => second.trans first

/-- A deleted organisation stays deleted. -/
def organisationLaw : RowLaw Uuid Organisation := .persistent
  (fun _ o p => o.isDeleted = true → p.isDeleted = true) (fun _ _ h => h)
  fun _ _ _ _ first second h => second (first h)

/-- A membership keeps its user and its organisation. -/
def membershipLaw : RowLaw Uuid Membership := .persistent
  (fun _ m n => n.userId = m.userId ∧ n.organisationId = m.organisationId)
  (fun _ _ => ⟨rfl, rfl⟩)
  fun _ _ _ _ first second => ⟨second.1.trans first.1, second.2.trans first.2⟩

/-- An invite keeps its organisation and role, and leaves only the pending status. -/
def inviteLaw : RowLaw Uuid Invite := .persistent
  (fun _ i j => j.organisationId = i.organisationId ∧ j.role = i.role ∧
    (j.status = i.status ∨ i.status = .pending))
  (fun _ _ => ⟨rfl, rfl, .inl rfl⟩)
  fun _ _ _ _ first second => ⟨second.1.trans first.1, second.2.1.trans first.2.1, by
    rcases first.2.2 with same | pending
    · rcases second.2.2 with same' | pending
      · exact .inl (same'.trans same)
      · exact .inr (same ▸ pending)
    · exact .inr pending⟩

variable {τ : Type} [DecidableEq τ]

/-- The invariant of the tenant database: row laws and unique indexes. -/
structure Db.Lawful (text : TextOps) (db : Db τ) : Prop where
  users : db.users.Lawful userLaw User.entries
  organisations : db.organisations.Lawful organisationLaw Organisation.entries
  memberships : db.memberships.Lawful membershipLaw Membership.entries
  invites : db.invites.Lawful inviteLaw (Invite.entries text)

/-- A committed database: nobody is in a transaction, and the unique indexes hold. -/
structure Db.AtRest (text : TextOps) (db : Db τ) : Prop where
  users : db.users.AtRest User.entries
  organisations : db.organisations.AtRest Organisation.entries
  memberships : db.memberships.AtRest Membership.entries
  invites : db.invites.AtRest (Invite.entries text)

theorem Db.AtRest.lawful {text : TextOps} {db : Db τ}
    (h : db.AtRest text) : db.Lawful text :=
  ⟨h.users.lawful _, h.organisations.lawful _, h.memberships.lawful _, h.invites.lawful _⟩

/-- What a step of `t` guarantees. -/
structure Db.Moves (t : τ) (db db' : Db τ) : Prop where
  users : Table.Moves userLaw t db.users db'.users
  organisations : Table.Moves organisationLaw t db.organisations db'.organisations
  memberships : Table.Moves membershipLaw t db.memberships db'.memberships
  invites : Table.Moves inviteLaw t db.invites db'.invites

/-- What `t` relies on the others for. -/
structure Db.Stays (t : τ) (db db' : Db τ) : Prop where
  users : Table.Stays userLaw t db.users db'.users
  organisations : Table.Stays organisationLaw t db.organisations db'.organisations
  memberships : Table.Stays membershipLaw t db.memberships db'.memberships
  invites : Table.Stays inviteLaw t db.invites db'.invites

theorem Db.Moves.refl (t : τ) (db : Db τ) : Db.Moves t db db :=
  ⟨.refl _ t _, .refl _ t _, .refl _ t _, .refl _ t _⟩

theorem Db.Stays.refl (t : τ) (db : Db τ) : Db.Stays t db db :=
  ⟨.refl _ t _, .refl _ t _, .refl _ t _, .refl _ t _⟩

theorem Db.Stays.trans {t : τ} {a b c : Db τ} (first : Db.Stays t a b) (second : Db.Stays t b c) :
    Db.Stays t a c :=
  ⟨first.users.trans second.users, first.organisations.trans second.organisations,
    first.memberships.trans second.memberships, first.invites.trans second.invites⟩

theorem Db.Moves.stays {t u : τ} {db db' : Db τ} (h : Db.Moves t db db') (other : u ≠ t) :
    Db.Stays u db db' :=
  ⟨h.users.stays other, h.organisations.stays other, h.memberships.stays other,
    h.invites.stays other⟩

/-- The membership row a statement may write. -/
def Statement.membershipTarget : Statement → Option Uuid
  | .insertMembership id _ | .updateRole _ id _ | .deactivate _ id
  | .lockActiveMembership id _ | .deactivateIfActive id _ => some id
  | _ => none

/-- The new versions of invite `k` that a statement writes. -/
inductive InviteWrite (clock : Time) (k : Uuid) : Statement → Option Invite → Invite → Prop where
  | insert {i} : InviteWrite clock k (.insertInvite k i) none i
  | accept {i hash now} : i.tokenHash = hash → i.status = .pending → i.isOpenAt now = true →
      InviteWrite clock k (.acceptPendingByTokenHash hash now) (some i)
        { i with status := .accepted, updatedAt := clock }
  | expireByToken {i hash now} : i.tokenHash = hash → i.status = .pending →
      i.isExpiredAt now = true →
      InviteWrite clock k (.expirePendingByTokenHash hash now) (some i)
        { i with status := .expired, updatedAt := clock }
  | revoke {i organisation actor now} : i.organisationId = organisation → i.status = .pending →
      InviteWrite clock k (.revokePending k organisation actor now) (some i)
        { i with status := .revoked, revokedAt := some now, revokedByUserId := some actor
                 updatedAt := clock }
  | rotate {i organisation newHash newExpiresAt now} : i.organisationId = organisation →
      i.status = .pending → i.isOpenAt now = true →
      InviteWrite clock k (.rotatePendingToken k organisation newHash newExpiresAt now) (some i)
        { i with tokenHash := newHash, expiresAt := some newExpiresAt, updatedAt := clock }
  | expireById {i organisation now} : i.organisationId = organisation → i.status = .pending →
      i.isExpiredAt now = true →
      InviteWrite clock k (.expirePendingById k organisation now) (some i)
        { i with status := .expired, updatedAt := clock }
  | scrub {i} : InviteWrite clock k (.scrubInvite k) (some i)
      { i with email := scrubbedInviteEmail k, tokenHash := scrubbedInviteTokenHash k
               updatedAt := clock }

theorem InviteWrite.lawful {clock : Time} {k : Uuid} {s : Statement} {a : Option Invite}
    {j : Invite} (h : InviteWrite clock k s a j) : inviteLaw.rel k a (some j) := by
  cases h <;> simp_all [inviteLaw]

/-- What one statement of `t` can do to the database. -/
inductive Case (text : TextOps) (t : τ) (s : Statement) (db : Db τ) : Db τ → Prop where
  | unchanged : Case text t s db db
  | user {k r} (writes : s.writesUser = true) (ok : db.users.Writable User.entries t k (some r))
      (step : userLaw.rel k (db.users.view t k) (some r)) :
      Case text t s db { db with users := db.users.put t k (some r) }
  | organisation {k r} (ok : db.organisations.Writable Organisation.entries t k (some r))
      (step : organisationLaw.rel k (db.organisations.view t k) (some r)) :
      Case text t s db { db with organisations := db.organisations.put t k (some r) }
  | membership {k r} (target : s.membershipTarget = some k)
      (fresh : ∀ id m, s = .insertMembership id m → db.memberships.view t k = none)
      (ok : db.memberships.Writable Membership.entries t k (some r))
      (step : membershipLaw.rel k (db.memberships.view t k) (some r)) :
      Case text t s db { db with memberships := db.memberships.put t k (some r) }
  | invite {k r} (ok : db.invites.Writable (Invite.entries text) t k (some r))
      (write : InviteWrite db.clock k s (db.invites.view t k) r) :
      Case text t s db { db with invites := db.invites.put t k (some r) }
  | commit (is : s = .commit) : Case text t s db (db.commit t)
  | rollback (is : s = .rollback) : Case text t s db (db.rollback t)

section Cases

variable {text : TextOps} {t : τ} {s : Statement} {db db' : Db τ} {α : Type} {r : Except AppError α}

theorem read_eq {a : α} (h : read a db = some (r, db')) : db' = db := by
  cases h
  rfl

theorem read_ok {a out : α} (h : read a db = some (.ok out, db')) : a = out ∧ db = db' := by
  cases h
  exact ⟨rfl, rfl⟩

theorem flushed_eq {ρ : Type} {out : Effect τ (Option ρ)} {r : Except AppError Unit}
    (h : flushed out = some (r, db')) : ∃ r', out = some (r', db') := by
  obtain ⟨⟨r', db''⟩, here, same⟩ := Option.map_eq_some_iff.mp h
  cases same
  exact ⟨r', here⟩

theorem refreshed_eq {ρ : Type} {out : Effect τ (Option ρ)} {r : Except AppError ρ}
    (h : refreshed out = some (r, db')) : ∃ r', out = some (r', db') := by
  obtain ⟨⟨r', db''⟩, here, same⟩ := Option.map_eq_some_iff.mp h
  cases same
  exact ⟨r', here⟩

theorem onUsers_eq {out : Option (Except AppError α × Table Uuid τ User)}
    (h : onUsers db out = some (r, db')) :
    ∃ T, out = some (r, T) ∧ db' = { db with users := T } := by
  obtain ⟨⟨r', T⟩, here, same⟩ := Option.map_eq_some_iff.mp h
  cases same
  exact ⟨T, here, rfl⟩

theorem onOrganisations_eq {out : Option (Except AppError α × Table Uuid τ Organisation)}
    (h : onOrganisations db out = some (r, db')) :
    ∃ T, out = some (r, T) ∧ db' = { db with organisations := T } := by
  obtain ⟨⟨r', T⟩, here, same⟩ := Option.map_eq_some_iff.mp h
  cases same
  exact ⟨T, here, rfl⟩

theorem onMemberships_eq {out : Option (Except AppError α × Table Uuid τ Membership)}
    (h : onMemberships db out = some (r, db')) :
    ∃ T, out = some (r, T) ∧ db' = { db with memberships := T } := by
  obtain ⟨⟨r', T⟩, here, same⟩ := Option.map_eq_some_iff.mp h
  cases same
  exact ⟨T, here, rfl⟩

theorem onInvites_eq {out : Option (Except AppError α × Table Uuid τ Invite)}
    (h : onInvites db out = some (r, db')) :
    ∃ T, out = some (r, T) ∧ db' = { db with invites := T } := by
  obtain ⟨⟨r', T⟩, here, same⟩ := Option.map_eq_some_iff.mp h
  cases same
  exact ⟨T, here, rfl⟩

theorem updateUser_case {id : Uuid} {change : User → User} {r : Except AppError (Option User)}
    (h : onUsers db (db.users.update User.entries .integrityError t id fun u => some (change u)) =
      some (r, db'))
    (writes : s.writesUser = true) (keeps : ∀ u, (change u).externalAuthId = u.externalAuthId) :
    Case text t s db db' := by
  obtain ⟨T, updated, rfl⟩ := onUsers_eq h
  rcases Table.update_cases updated with ⟨rfl, -⟩ | ⟨u, v, seen, changed, ok, rfl, -⟩
  · exact .unchanged
  · refine .user writes ok ?_
    cases changed
    simpa [seen, userLaw] using keeps u

theorem updateMembership_case {id : Uuid} {change : Membership → Membership}
    {r : Except AppError Unit} (h : updateMembership t id change db = some (r, db'))
    (target : s.membershipTarget = some id) (update : ∀ j m, s ≠ .insertMembership j m)
    (keeps : ∀ m, (change m).userId = m.userId ∧ (change m).organisationId = m.organisationId) :
    Case text t s db db' := by
  obtain ⟨r', h⟩ := flushed_eq h
  obtain ⟨T, updated, rfl⟩ := onMemberships_eq h
  rcases Table.update_cases updated with ⟨rfl, -⟩ | ⟨m, n, seen, changed, ok, rfl, -⟩
  · exact .unchanged
  · refine .membership target (fun j m is => absurd is (update j m)) ok ?_
    cases changed
    simpa [seen, membershipLaw] using keeps m

theorem updateInvite_case {id : Uuid} {p : Invite → Bool} {change : Invite → Invite}
    {r : Except AppError (Option Invite)}
    (h : updateInvite text t id p change db = some (r, db'))
    (write : ∀ i, p i = true →
      InviteWrite db.clock id s (some i) { change i with updatedAt := db.clock }) :
    Case text t s db db' := by
  obtain ⟨T, updated, rfl⟩ := onInvites_eq h
  rcases Table.update_cases updated with ⟨rfl, -⟩ | ⟨i, j, seen, changed, ok, rfl, -⟩
  · exact .unchanged
  · refine .invite ok ?_
    unfold updateIf at changed
    split at changed
    · rename_i matched
      cases changed
      exact seen ▸ write i matched
    · cases changed

theorem updateInviteByTokenHash_case {hash : String} {p : Invite → Bool}
    {change : Invite → Invite} {r : Except AppError (Option (Uuid × Invite))}
    (h : updateInviteByTokenHash text t hash p change db = some (r, db'))
    (write : ∀ k i, i.tokenHash = hash → p i = true →
      InviteWrite db.clock k s (some i) { change i with updatedAt := db.clock }) :
    Case text t s db db' := by
  unfold updateInviteByTokenHash at h
  split at h
  · exact read_eq h ▸ .unchanged
  · obtain ⟨⟨r', db''⟩, here, same⟩ := Option.map_eq_some_iff.mp h
    cases same
    refine updateInvite_case here fun i matched => ?_
    simp only [Bool.and_eq_true, beq_iff_eq] at matched
    exact write _ i matched.1 matched.2

theorem isPending_iff {i : Invite} : i.isPending = true ↔ i.status = .pending := by
  simp [Invite.isPending]

/-- The inversion of `exec`: a statement reads, writes one row, or ends the transaction. -/
theorem exec_case (lawful : db.Lawful text) {r : Except AppError (Answer s)}
    (h : exec text t s db = some (r, db')) : Case text t s db db' := by
  cases s with
  | insertUser id user =>
      obtain ⟨T, inserted, rfl⟩ := onUsers_eq h
      rcases Table.insert_cases inserted with ⟨rfl, -⟩ | ⟨fresh, ok, rfl, -⟩
      · exact .unchanged
      · exact .user rfl ok (by simp [fresh, userLaw])
  | updateProfile id loaded identity =>
      obtain ⟨r', h⟩ := refreshed_eq h
      exact updateUser_case h rfl fun _ => rfl
  | markOnboarded id =>
      obtain ⟨r', h⟩ := flushed_eq h
      exact updateUser_case h rfl fun _ => rfl
  | insertOrganisation id organisation =>
      obtain ⟨T, inserted, rfl⟩ := onOrganisations_eq h
      rcases Table.insert_cases inserted with ⟨rfl, -⟩ | ⟨fresh, ok, rfl, -⟩
      · exact .unchanged
      · exact .organisation ok (by simp [fresh, organisationLaw])
  | updateDetails | softDeleteOrganisation =>
      obtain ⟨r', h⟩ := flushed_eq h
      obtain ⟨T, updated, rfl⟩ := onOrganisations_eq h
      rcases Table.update_cases updated with ⟨rfl, -⟩ | ⟨o, p, seen, changed, ok, rfl, -⟩
      · exact .unchanged
      · cases changed
        exact .organisation ok (by simp [seen, organisationLaw, Organisation.isDeleted])
  | insertMembership id membership =>
      simp only [exec] at h
      split at h
      · obtain ⟨T, inserted, rfl⟩ := onMemberships_eq h
        rcases Table.insert_cases inserted with ⟨rfl, -⟩ | ⟨fresh, ok, rfl, -⟩
        · exact .unchanged
        · exact .membership rfl (fun _ _ _ => fresh) ok (by simp [fresh, membershipLaw])
      · cases h
        exact .unchanged
  | updateRole writer id role => exact updateMembership_case h rfl (by simp) fun _ => ⟨rfl, rfl⟩
  | deactivate writer id => exact updateMembership_case h rfl (by simp) fun _ => ⟨rfl, rfl⟩
  | lockActiveMembership id organisation =>
      obtain ⟨⟨m, T⟩, locked, same⟩ := Option.map_eq_some_iff.mp h
      cases same
      rcases Table.lockRow_cases locked with ⟨rfl, -⟩ | ⟨m, seen, -, free, rfl, -⟩
      · exact .unchanged
      · exact .membership rfl (by simp) ⟨free, seen ▸ lawful.memberships.unique.fits_view free⟩
          (seen ▸ membershipLaw.refl _ _)
  | deactivateIfActive id organisation =>
      obtain ⟨⟨r', db''⟩, here, same⟩ := Option.map_eq_some_iff.mp h
      cases same
      obtain ⟨T, updated, rfl⟩ := onMemberships_eq here
      rcases Table.update_cases updated with ⟨rfl, -⟩ | ⟨m, n, seen, changed, ok, rfl, -⟩
      · exact .unchanged
      · unfold updateIf at changed
        split at changed
        · cases changed
          exact .membership rfl (by simp) ok (by simp [seen, membershipLaw])
        · cases changed
  | insertInvite id invite =>
      simp only [exec] at h
      split at h
      · obtain ⟨T, inserted, rfl⟩ := onInvites_eq h
        rcases Table.insert_cases inserted with ⟨rfl, -⟩ | ⟨fresh, ok, rfl, -⟩
        · exact .unchanged
        · exact .invite ok (fresh ▸ .insert)
      · cases h
        exact .unchanged
  | acceptPendingByTokenHash hash now =>
      refine updateInviteByTokenHash_case h fun k i token matched => ?_
      simp only [Bool.and_eq_true, isPending_iff] at matched
      exact .accept token matched.1 matched.2
  | expirePendingByTokenHash hash now =>
      refine updateInviteByTokenHash_case h fun k i token matched => ?_
      simp only [Bool.and_eq_true, isPending_iff] at matched
      exact .expireByToken token matched.1 matched.2
  | revokePending id organisation actor now =>
      refine updateInvite_case h fun i matched => ?_
      simp only [Bool.and_eq_true, isPending_iff, beq_iff_eq] at matched
      exact .revoke matched.1 matched.2
  | rotatePendingToken id organisation newHash newExpiresAt now =>
      refine updateInvite_case h fun i matched => ?_
      simp only [Bool.and_eq_true, isPending_iff, beq_iff_eq] at matched
      exact .rotate matched.1.1 matched.1.2 matched.2
  | expirePendingById id organisation now =>
      refine updateInvite_case h fun i matched => ?_
      simp only [Bool.and_eq_true, isPending_iff, beq_iff_eq] at matched
      exact .expireById matched.1.1 matched.1.2 matched.2
  | scrubInvite id =>
      obtain ⟨r', h⟩ := flushed_eq h
      exact updateInvite_case h fun i _ => .scrub
  | commit =>
      cases h
      exact .commit rfl
  | rollback =>
      cases h
      exact .rollback rfl
  | _ => exact read_eq h ▸ .unchanged

/-- A quiet statement leaves the database alone. -/
theorem exec_quiet (quiet : s.isQuiet = true) {r : Except AppError (Answer s)}
    (h : exec text t s db = some (r, db')) : db' = db := by
  cases s <;> first | exact read_eq h | cases quiet

/-- A statement keeps the invariant and what the others rely on. -/
theorem Case.lawful (h : Case text t s db db') (lawful : db.Lawful text) :
    db'.Lawful text ∧ Db.Moves t db db' := by
  obtain ⟨users, organisations, memberships, invites⟩ := lawful
  cases h with
  | unchanged => exact ⟨⟨users, organisations, memberships, invites⟩, .refl t db⟩
  | user _ ok step =>
      obtain ⟨kept, moved⟩ := users.put ok step
      exact ⟨⟨kept, organisations, memberships, invites⟩, moved, .refl _ t _, .refl _ t _, .refl _ t _⟩
  | organisation ok step =>
      obtain ⟨kept, moved⟩ := organisations.put ok step
      exact ⟨⟨users, kept, memberships, invites⟩, .refl _ t _, moved, .refl _ t _, .refl _ t _⟩
  | membership _ _ ok step =>
      obtain ⟨kept, moved⟩ := memberships.put ok step
      exact ⟨⟨users, organisations, kept, invites⟩, .refl _ t _, .refl _ t _, moved, .refl _ t _⟩
  | invite ok write =>
      obtain ⟨kept, moved⟩ := invites.put ok write.lawful
      exact ⟨⟨users, organisations, memberships, kept⟩, .refl _ t _, .refl _ t _, .refl _ t _, moved⟩
  | commit =>
      exact ⟨⟨(users.commit t).1, (organisations.commit t).1, (memberships.commit t).1,
        (invites.commit t).1⟩, (users.commit t).2, (organisations.commit t).2,
        (memberships.commit t).2, (invites.commit t).2⟩
  | rollback =>
      exact ⟨⟨(users.rollback t).1, (organisations.rollback t).1, (memberships.rollback t).1,
        (invites.rollback t).1⟩, (users.rollback t).2, (organisations.rollback t).2,
        (memberships.rollback t).2, (invites.rollback t).2⟩

end Cases

end SaasTemplate.Tenancy
