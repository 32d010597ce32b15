import SaasTemplate.Tenancy.OwnerContract

/-! # No active membership in a deleted organisation

The soft delete deactivates the memberships it finds and then marks the organisation; the
operations that add a membership look at the organisation, if at all, some statements
earlier, and the foreign key does not look at the mark. So the two meet only where the
mark or the membership is written. A member added after the mark is caught by the check
that the organisation has an owner; an owner added then is not.
-/

set_option linter.unusedSectionVars false

namespace SaasTemplate.Tenancy

open SaasTemplate.Isolation SaasTemplate.Isolation.Prog

variable {τ : Type} [DecidableEq τ] {text : TextOps}

/-- An active membership of the organisation. -/
def isActiveIn (organisation : Uuid) (row : Option Membership) : Bool :=
  row.any fun m => m.isActive && m.organisationId == organisation

def isMarkedDeleted (row : Option Organisation) : Bool := row.any (·.isDeleted)

/-- Active memberships and marks of deletion keep apart, in the committed rows and in what
    the open transactions have prepared. -/
structure Vacated (db : Db τ) : Prop where
  committed : ∀ {k o}, isActiveIn o (db.memberships.committed k) = true →
    isMarkedDeleted (db.organisations.committed o) = false
  /-- Whoever marks an organisation holds each membership that was active in it. -/
  marking : ∀ {k o}, isActiveIn o (db.memberships.committed k) = true →
    isMarkedDeleted (db.organisations.pending o) = true →
    db.memberships.holder k = db.organisations.holder o
  joining : ∀ {k o}, isActiveIn o (db.memberships.pending k) = true →
    isMarkedDeleted (db.organisations.pending o) = false
  /-- What is prepared for a deleted organisation is not its owner. -/
  late : ∀ {k m}, db.memberships.pending k = some m → m.isActiveOwner = true →
    isMarkedDeleted (db.organisations.committed m.organisationId) = false

/-! ## The writes -/

/-- What a statement of `t` does to organisations and memberships. -/
inductive TenureWrite (t : τ) (s : Statement) (db : Db τ) : Db τ → Prop where
  | same {db' : Db τ} : db'.organisations = db.organisations → db'.memberships = db.memberships →
      TenureWrite t s db db'
  | insertOrganisation (id : Uuid) (o : Organisation) : o.isDeleted = false →
      TenureWrite t s db { db with organisations := db.organisations.put t id (some o) }
  | softDelete (id : Uuid) (now : Time) (o : Organisation) : s = .softDeleteOrganisation id now →
      db.organisations.free t id = true →
      TenureWrite t s db { db with organisations := db.organisations.put t id (some o) }
  | insertMembership (id : Uuid) (m : Membership) : s = .insertMembership id m →
      db.memberships.free t id = true →
      TenureWrite t s db { db with memberships := db.memberships.put t id (some m) }
  | changeMembership (id : Uuid) (n : Membership) : db.memberships.free t id = true →
      (n.isActive = true → db.memberships.view t id = some n) →
      TenureWrite t s db { db with memberships := db.memberships.put t id (some n) }
  | commit : s = .commit → TenureWrite t s db (db.commit t)
  | rollback : s = .rollback → TenureWrite t s db (db.rollback t)

section Writes

variable {t : τ} {s : Statement} {db db' : Db τ}

theorem tenureWrite_of_updateUser {id : Uuid} {change : User → User} {r : Except AppError Unit}
    (h : updateUser t id change db = some (r, db')) : TenureWrite t s db db' := by
  obtain ⟨r', h⟩ := flushed_eq h
  obtain ⟨T, -, rfl⟩ := onUsers_eq h
  exact .same rfl rfl

theorem tenureWrite_of_updateInvite {id : Uuid} {p : Invite → Bool} {change : Invite → Invite}
    {r : Except AppError (Option Invite)}
    (h : updateInvite text t id p change db = some (r, db')) : TenureWrite t s db db' := by
  obtain ⟨T, -, rfl⟩ := onInvites_eq h
  exact .same rfl rfl

theorem tenureWrite_of_updateInviteByTokenHash {hash : String} {p : Invite → Bool}
    {change : Invite → Invite} {r : Except AppError (Option (Uuid × Invite))}
    (h : updateInviteByTokenHash text t hash p change db = some (r, db')) :
    TenureWrite t s db db' := by
  unfold updateInviteByTokenHash at h
  split at h
  · exact read_eq h ▸ .same rfl rfl
  · obtain ⟨⟨r', db''⟩, here, same⟩ := Option.map_eq_some_iff.mp h
    cases same
    exact tenureWrite_of_updateInvite here

theorem tenureWrite_of_updateMembership {id : Uuid} {change : Membership → Membership}
    {r : Except AppError Unit} (h : updateMembership t id change db = some (r, db'))
    (ends : ∀ m, (change m).isActive = false) : TenureWrite t s db db' := by
  obtain ⟨r', h⟩ := flushed_eq h
  obtain ⟨T, updated, rfl⟩ := onMemberships_eq h
  rcases Table.update_cases updated with ⟨rfl, -⟩ | ⟨m, n, seen, changed, ok, rfl, -⟩
  · exact .same rfl rfl
  · cases changed
    exact .changeMembership id _ ok.free fun active => by simp [ends m] at active

/-- The statements of the operations here: they change no role, and the organisations they
    insert are not deleted. -/
def Statement.isTenure : Statement → Bool
  | .updateRole _ _ _ | .updateDetails _ _ _ => false
  | .insertOrganisation _ o => !o.isDeleted
  | _ => true

/-- Every statement has one of these effects. -/
theorem exec_tenureWrite (tenure : s.isTenure = true) {r : Except AppError (Answer s)}
    (h : exec text t s db = some (r, db')) : TenureWrite t s db db' := by
  cases s with
  | insertUser id user =>
      obtain ⟨T, -, rfl⟩ := onUsers_eq h
      exact .same rfl rfl
  | updateProfile id loaded identity =>
      obtain ⟨r', h⟩ := refreshed_eq h
      obtain ⟨T, -, rfl⟩ := onUsers_eq h
      exact .same rfl rfl
  | markOnboarded => exact tenureWrite_of_updateUser h
  | insertOrganisation id organisation =>
      obtain ⟨T, inserted, rfl⟩ := onOrganisations_eq h
      rcases Table.insert_cases inserted with ⟨rfl, -⟩ | ⟨-, -, rfl, -⟩
      · exact .same rfl rfl
      · exact .insertOrganisation id organisation (by simpa [Statement.isTenure] using tenure)
  | softDeleteOrganisation id now =>
      obtain ⟨r', h⟩ := flushed_eq h
      obtain ⟨T, updated, rfl⟩ := onOrganisations_eq h
      rcases Table.update_cases updated with ⟨rfl, -⟩ | ⟨o, p, seen, changed, ok, rfl, -⟩
      · exact .same rfl rfl
      · exact .softDelete id now p rfl ok.free
  | insertMembership id membership =>
      simp only [exec] at h
      split at h
      · obtain ⟨T, inserted, rfl⟩ := onMemberships_eq h
        rcases Table.insert_cases inserted with ⟨rfl, -⟩ | ⟨-, ok, rfl, -⟩
        · exact .same rfl rfl
        · exact .insertMembership id membership rfl ok.free
      · cases h
        exact .same rfl rfl
  | updateRole | updateDetails => cases tenure
  | deactivate writer id => exact tenureWrite_of_updateMembership h fun m => rfl
  | lockActiveMembership id organisation =>
      obtain ⟨⟨m, T⟩, locked, same⟩ := Option.map_eq_some_iff.mp h
      cases same
      rcases Table.lockRow_cases locked with ⟨rfl, -⟩ | ⟨m, seen, -, free, rfl, -⟩
      · exact .same rfl rfl
      · exact .changeMembership id m free fun _ => seen
  | deactivateIfActive id organisation =>
      obtain ⟨⟨r', db''⟩, here, same⟩ := Option.map_eq_some_iff.mp h
      cases same
      obtain ⟨T, updated, rfl⟩ := onMemberships_eq here
      rcases Table.update_cases updated with ⟨rfl, -⟩ | ⟨m, n, seen, changed, ok, rfl, -⟩
      · exact .same rfl rfl
      · unfold updateIf at changed
        split at changed
        · cases changed
          exact .changeMembership id _ ok.free (by simp)
        · cases changed
  | insertInvite id invite =>
      simp only [exec] at h
      split at h
      · obtain ⟨T, -, rfl⟩ := onInvites_eq h
        exact .same rfl rfl
      · cases h
        exact .same rfl rfl
  | acceptPendingByTokenHash | expirePendingByTokenHash =>
      exact tenureWrite_of_updateInviteByTokenHash h
  | revokePending | rotatePendingToken | expirePendingById => exact tenureWrite_of_updateInvite h
  | scrubInvite id =>
      obtain ⟨r', h⟩ := flushed_eq h
      exact tenureWrite_of_updateInvite h
  | commit =>
      cases h
      exact .commit rfl
  | rollback =>
      cases h
      exact .rollback rfl
  | _ => exact read_eq h ▸ .same rfl rfl

end Writes

/-! ## The condition -/

/-- Does the statement add a membership to an organisation that an open transaction has
    marked, or an owner to a deleted one, or does it mark an organisation in which a
    membership is active or being added that the transaction has not deactivated? -/
def meetsDeletion (t : τ) (s : Statement) (db : Db τ) : Bool :=
  match s with
  | .insertMembership _ m => m.isActive &&
      (isMarkedDeleted (db.organisations.pending m.organisationId) ||
        m.isActiveOwner && isMarkedDeleted (db.organisations.committed m.organisationId))
  | .softDeleteOrganisation id _ => db.memberships.keys.any fun k =>
      isActiveIn id (db.memberships.pending k) ||
        isActiveIn id (db.memberships.committed k) && db.memberships.holder k != some t
  | _ => false

/-- Neither a new membership nor a deletion meets the other. -/
def DeletionApart (t : τ) (s : Statement) (db : Db τ) : Prop := meetsDeletion t s db = false

section Steps

variable {t : τ} {s : Statement} {db db' : Db τ}

theorem DeletionApart.joining {id : Uuid} {m : Membership}
    (h : DeletionApart t (.insertMembership id m) db) {o : Uuid}
    (active : isActiveIn o (some m) = true) :
    isMarkedDeleted (db.organisations.pending o) = false := by
  simp only [isActiveIn, Option.any_some, Bool.and_eq_true, beq_iff_eq] at active
  obtain ⟨active, rfl⟩ := active
  simp only [DeletionApart, meetsDeletion, active, Bool.true_and, Bool.or_eq_false_iff] at h
  exact h.1

theorem DeletionApart.late {id : Uuid} {m : Membership}
    (h : DeletionApart t (.insertMembership id m) db) (owner : m.isActiveOwner = true) :
    isMarkedDeleted (db.organisations.committed m.organisationId) = false := by
  have active : m.isActive = true := by
    simp only [Membership.isActiveOwner, Bool.and_eq_true] at owner
    exact owner.1
  simp only [DeletionApart, meetsDeletion, active, owner, Bool.true_and,
    Bool.or_eq_false_iff] at h
  exact h.2

theorem DeletionApart.softDelete {id : Uuid} {now : Time}
    (h : DeletionApart t (.softDeleteOrganisation id now) db) (k : Uuid) :
    isActiveIn id (db.memberships.pending k) = false ∧
      (isActiveIn id (db.memberships.committed k) = true → db.memberships.holder k = some t) := by
  by_cases known : k ∈ db.memberships.keys
  · have fine := h
    simp only [DeletionApart, meetsDeletion, List.any_eq_false] at fine
    have here := fine k known
    simp only [Bool.or_eq_true, Bool.and_eq_true, not_or, Bool.not_eq_true, bne_iff_ne, ne_eq,
      not_and, Decidable.not_not] at here
    exact here
  · have absent := db.memberships.covers k known
    refine ⟨?_, fun active => ?_⟩
    · simp [Table.pending, absent, Cell.empty, Cell.pending, isActiveIn]
    · simp [Table.committed, absent, Cell.empty, isActiveIn] at active

theorem Vacated.insertOrganisation (h : Vacated db) {id : Uuid} {o : Organisation}
    (live : o.isDeleted = false) :
    Vacated { db with organisations := db.organisations.put t id (some o) } := by
  have pending : ∀ j, isMarkedDeleted ((db.organisations.put t id (some o)).pending j) = true →
      j ≠ id ∧ isMarkedDeleted (db.organisations.pending j) = true := by
    intro j marked
    by_cases same : j = id
    · subst same
      simp [isMarkedDeleted, live] at marked
    · exact ⟨same, by simpa [Table.pending_put_other same] using marked⟩
  refine ⟨fun active => by simpa using h.committed active, ?_, ?_,
    fun here owner => by simpa using h.late here owner⟩
  · intro k j active marked
    obtain ⟨other, before⟩ := pending j marked
    simpa [Table.holder_put_other other] using h.marking active before
  · intro k j active
    by_contra marked
    have before := (pending j (by simpa using marked)).2
    simp [h.joining active] at before

theorem Vacated.softDelete (h : Vacated db) {id : Uuid} {now : Time} {o : Organisation}
    (apart : DeletionApart t (.softDeleteOrganisation id now) db) :
    Vacated { db with organisations := db.organisations.put t id (some o) } := by
  refine ⟨fun active => by simpa using h.committed active, ?_, ?_,
    fun here owner => by simpa using h.late here owner⟩
  · intro k j active marked
    by_cases same : j = id
    · subst same
      simpa using (apart.softDelete k).2 active
    · have before : isMarkedDeleted (db.organisations.pending j) = true := by
        simpa [Table.pending_put_other same] using marked
      simpa [Table.holder_put_other same] using h.marking active before
  · intro k j active
    by_cases same : j = id
    · subst same
      simp [(apart.softDelete k).1] at active
    · simpa [Table.pending_put_other same] using h.joining active

theorem isMarkedDeleted_pending {O : Table Uuid τ Organisation} {o : Uuid}
    (marked : isMarkedDeleted (O.pending o) = true) : ∃ u, O.holder o = some u := by
  cases prepared : O.pending o with
  | none => simp [prepared, isMarkedDeleted] at marked
  | some row => exact Table.held_of_pending prepared

theorem isActiveIn_pending {M : Table Uuid τ Membership} {k o : Uuid}
    (active : isActiveIn o (M.pending k) = true) : ∃ u, M.holder k = some u := by
  cases prepared : M.pending k with
  | none => simp [prepared, isActiveIn] at active
  | some row => exact Table.held_of_pending prepared

/-- Whoever may write a membership of an organisation that is being marked, marks it. -/
theorem Vacated.holder_of_free (h : Vacated db) {id o : Uuid}
    (free : db.memberships.free t id = true)
    (active : isActiveIn o (db.memberships.committed id) = true)
    (marked : isMarkedDeleted (db.organisations.pending o) = true) :
    db.memberships.holder id = some t := by
  obtain ⟨u, held⟩ := isMarkedDeleted_pending marked
  have holds := h.marking active marked
  rcases Table.holder_of_free free with nobody | own
  · simp [nobody, held] at holds
  · exact own

/-- A membership row that `t` writes: it joins no organisation that is being marked. -/
theorem Vacated.putMembership (h : Vacated db) {id : Uuid} {r : Membership}
    (free : db.memberships.free t id = true)
    (joins : ∀ o, isActiveIn o (some r) = true →
      isMarkedDeleted (db.organisations.pending o) = false)
    (late : r.isActiveOwner = true →
      isMarkedDeleted (db.organisations.committed r.organisationId) = false) :
    Vacated { db with memberships := db.memberships.put t id (some r) } := by
  refine ⟨fun active => h.committed (by simpa using active), ?_, ?_, ?_⟩
  · intro k o active marked
    have before : isActiveIn o (db.memberships.committed k) = true := by simpa using active
    have holds := h.marking before marked
    by_cases same : k = id
    · subst same
      rw [h.holder_of_free free before marked] at holds
      simpa using holds
    · simpa [Table.holder_put_other same] using holds
  · intro k o active
    by_cases same : k = id
    · subst same
      exact joins o (by simpa using active)
    · exact h.joining (by simpa [Table.pending_put_other same] using active)
  · intro k m here owner
    by_cases same : k = id
    · subst same
      simp only [Table.pending_put_same, Option.some.injEq] at here
      subst here
      exact late owner
    · exact h.late (by simpa [Table.pending_put_other same] using here) owner

theorem isActiveIn_self {m : Membership} (active : m.isActive = true) :
    isActiveIn m.organisationId (some m) = true := by
  simp [isActiveIn, active]

theorem isActive_of_owner {m : Membership} (owner : m.isActiveOwner = true) : m.isActive = true := by
  simp only [Membership.isActiveOwner, Bool.and_eq_true] at owner
  exact owner.1

theorem Vacated.changeMembership (h : Vacated db) {id : Uuid} {n : Membership}
    (free : db.memberships.free t id = true)
    (keeps : n.isActive = true → db.memberships.view t id = some n) :
    Vacated { db with memberships := db.memberships.put t id (some n) } := by
  refine h.putMembership free (fun o active => ?_) fun owner => ?_
  · have seen := keeps (by simp [isActiveIn] at active; exact active.1)
    by_cases mine : db.memberships.holder id = some t
    · rw [Table.view_of_held mine] at seen
      exact h.joining (seen ▸ active)
    · rw [Table.view_of_not_held mine] at seen
      by_contra marked
      exact mine (h.holder_of_free free (seen ▸ active) (by simpa using marked))
  · have seen := keeps (isActive_of_owner owner)
    by_cases mine : db.memberships.holder id = some t
    · exact h.late (Table.view_of_held mine ▸ seen) owner
    · rw [Table.view_of_not_held mine] at seen
      exact h.committed (seen ▸ isActiveIn_self (isActive_of_owner owner))

/-- The memberships that `t` has prepared are in organisations that are not deleted. -/
def JoinsLive (t : τ) (db : Db τ) : Prop :=
  ∀ k o, db.memberships.holder k = some t → isActiveIn o (db.memberships.pending k) = true →
    isMarkedDeleted (db.organisations.committed o) = false

theorem Vacated.commit (h : Vacated db) (ready : JoinsLive t db) : Vacated (db.commit t) := by
  have joins : ∀ {k o}, isActiveIn o (db.memberships.view t k) = true →
      isMarkedDeleted (db.organisations.view t o) = false := by
    intro k o active
    by_cases mine : db.memberships.holder k = some t
    · have prepared := Table.view_of_held mine ▸ active
      by_cases held : db.organisations.holder o = some t
      · exact Table.view_of_held held ▸ h.joining prepared
      · exact Table.view_of_not_held held ▸ ready k o mine prepared
    · have here := Table.view_of_not_held mine ▸ active
      by_cases held : db.organisations.holder o = some t
      · by_contra marked
        rw [Table.view_of_held held] at marked
        exact mine ((h.marking here (by simpa using marked)).trans held)
      · exact Table.view_of_not_held held ▸ h.committed here
  have marked_before : ∀ {o}, isMarkedDeleted ((db.organisations.commit t).pending o) = true →
      (db.organisations.commit t).cell o = db.organisations.cell o := by
    intro o marked
    obtain ⟨u, held⟩ := isMarkedDeleted_pending marked
    exact Table.cell_commit_of_not_held (Table.holder_commit_eq_some held).2
  have active_before : ∀ {k o}, isActiveIn o ((db.memberships.commit t).pending k) = true →
      (db.memberships.commit t).cell k = db.memberships.cell k := by
    intro k o active
    obtain ⟨u, held⟩ := isActiveIn_pending active
    exact Table.cell_commit_of_not_held (Table.holder_commit_eq_some held).2
  refine ⟨fun active => by simpa [Db.commit] using joins (by simpa [Db.commit] using active),
    ?_, ?_, ?_⟩
  · intro k o active marked
    have same := marked_before marked
    have before : isMarkedDeleted (db.organisations.pending o) = true :=
      Table.pending_of_cell same ▸ marked
    simp only [Db.commit, Table.committed_commit] at active
    have notMine : db.memberships.holder k ≠ some t := by
      intro mine
      simp [h.joining (Table.view_of_held mine ▸ active)] at before
    have holds := h.marking (Table.view_of_not_held notMine ▸ active) before
    exact (Table.holder_of_cell (Table.cell_commit_of_not_held notMine)).trans
      (holds.trans (Table.holder_of_cell same).symm)
  · intro k o active
    have same := active_before active
    by_contra marked
    have marked := by simpa using marked
    have before := Table.pending_of_cell (marked_before marked) ▸ marked
    simp [h.joining (Table.pending_of_cell same ▸ active)] at before
  · intro k m here owner
    have active := isActiveIn_self (isActive_of_owner owner)
    have same := active_before (here.symm ▸ active)
    have prepared : db.memberships.pending k = some m := Table.pending_of_cell same ▸ here
    by_cases held : db.organisations.holder m.organisationId = some t
    · simpa [Db.commit, Table.view_of_held held] using h.joining (k := k) (prepared.symm ▸ active)
    · simpa [Db.commit, Table.view_of_not_held held] using h.late prepared owner

theorem Vacated.rollback (h : Vacated db) (t : τ) : Vacated (db.rollback t) := by
  have marked_before : ∀ {o}, isMarkedDeleted ((db.organisations.rollback t).pending o) = true →
      db.organisations.holder o ≠ some t ∧
        (db.organisations.rollback t).cell o = db.organisations.cell o := by
    intro o marked
    obtain ⟨u, held⟩ := isMarkedDeleted_pending marked
    have other := (Table.holder_rollback_eq_some held).2
    exact ⟨other, Table.cell_rollback_of_not_held other⟩
  have prepared_before : ∀ {k m}, (db.memberships.rollback t).pending k = some m →
      db.memberships.pending k = some m := by
    intro k m here
    obtain ⟨u, held⟩ := Table.held_of_pending here
    have same := Table.cell_rollback_of_not_held (Table.holder_rollback_eq_some held).2
    exact Table.pending_of_cell same ▸ here
  refine ⟨fun active => by simpa [Db.rollback] using h.committed (by simpa [Db.rollback] using active),
    ?_, ?_, fun here owner => by simpa [Db.rollback] using h.late (prepared_before here) owner⟩
  · intro k o active marked
    obtain ⟨other, same⟩ := marked_before marked
    have before : isMarkedDeleted (db.organisations.pending o) = true :=
      Table.pending_of_cell same ▸ marked
    have holds := h.marking (by simpa [Db.rollback] using active) before
    have notMine : db.memberships.holder k ≠ some t := fun mine => other (holds.symm.trans mine)
    exact (Table.holder_of_cell (Table.cell_rollback_of_not_held notMine)).trans
      (holds.trans (Table.holder_of_cell same).symm)
  · intro k o active
    cases here : (db.memberships.rollback t).pending k with
    | none => simp [Db.rollback, here, isActiveIn] at active
    | some m =>
        by_contra marked
        have marked := by simpa using marked
        have before := Table.pending_of_cell (marked_before marked).2 ▸ marked
        have joins := h.joining (k := k) (o := o)
          (by simpa [Db.rollback, here, prepared_before here] using active)
        simp [joins] at before

end Steps

/-! ## The contract -/

/-- While `t` has prepared an active membership of an organisation, that is not deleted. -/
def KeepsJoined (t : τ) (db db' : Db τ) : Prop :=
  ∀ k o, db.memberships.holder k = some t → isActiveIn o (db.memberships.pending k) = true →
    isMarkedDeleted (db.organisations.committed o) = false →
    isMarkedDeleted (db'.organisations.committed o) = false

theorem keepsJoined_of_committed {t : τ} {db db' : Db τ}
    (same : ∀ o, db'.organisations.committed o = db.organisations.committed o) :
    KeepsJoined t db db' := fun _ o _ _ live => by rwa [same o]

theorem Vacated.keepsJoined_commit {db : Db τ} (h : Vacated db) (t u : τ) :
    KeepsJoined u db (db.commit t) := by
  intro k o _ active live
  by_cases held : db.organisations.holder o = some t
  · simpa [Db.commit, Table.view_of_held held] using h.joining active
  · simpa [Db.commit, Table.view_of_not_held held] using live

/-- Statements of the operations that add no membership and end no transaction. -/
def Statement.isStaying : Statement → Bool
  | .insertMembership _ _ | .commit | .rollback => false
  | s => s.isTenure

section Contract

variable {t : τ} {s : Statement} {db db' : Db τ}

/-- What a statement needs to keep the organisations vacated. -/
structure TenureNeeds (t : τ) (s : Statement) (db : Db τ) : Prop where
  tenure : s.isTenure = true
  apart : DeletionApart t s db
  ready : s = .commit → JoinsLive t db

theorem Vacated.exec (h : Vacated db) (needs : TenureNeeds t s db)
    {r : Except AppError (Answer s)} (executed : Tenancy.exec text t s db = some (r, db')) :
    Vacated db' ∧ ∀ u, KeepsJoined u db db' := by
  by_cases ends : s = .commit
  · subst ends
    cases executed
    exact ⟨h.commit (needs.ready rfl), h.keepsJoined_commit t⟩
  cases exec_tenureWrite needs.tenure executed with
  | same organisations memberships =>
      refine ⟨⟨?_, ?_, ?_, ?_⟩, fun u => keepsJoined_of_committed fun o => by rw [organisations]⟩
      all_goals rw [organisations, memberships]
      · exact h.committed
      · exact h.marking
      · exact h.joining
      · exact h.late
  | insertOrganisation id o live =>
      exact ⟨h.insertOrganisation live, fun u => keepsJoined_of_committed (by simp)⟩
  | softDelete id now o is free =>
      subst is
      exact ⟨h.softDelete needs.apart, fun u => keepsJoined_of_committed (by simp)⟩
  | insertMembership id m is free =>
      subst is
      exact ⟨h.putMembership free (fun o => needs.apart.joining) needs.apart.late,
        fun u => keepsJoined_of_committed fun _ => rfl⟩
  | changeMembership id n free keeps =>
      exact ⟨h.changeMembership free keeps, fun u => keepsJoined_of_committed fun _ => rfl⟩
  | commit is => exact absurd is ends
  | rollback => exact ⟨h.rollback t, fun u => keepsJoined_of_committed (by simp [Db.rollback])⟩

theorem KeepsJoined.trans {a b c : Db τ} (keeps : Db.Stays t a b) (first : KeepsJoined t a b)
    (second : KeepsJoined t b c) : KeepsJoined t a c := by
  intro k o held active live
  have same := keeps.memberships.keeps.cell held
  exact second k o ((Table.holder_of_cell same).trans held)
    (by rw [Table.pending_of_cell same]; exact active) (first k o held active live)

/-- The tenant store, with deleted organisations vacated. -/
def vacatedDiscipline (τ : Type) [DecidableEq τ] (text : TextOps) :
    Discipline (machine τ text) .commit .rollback where
  inv db := db.Lawful text ∧ Vacated db
  moves t db db' := Db.Moves t db db' ∧ ∀ u, KeepsJoined u db db'
  stays t db db' := Db.Stays t db db' ∧ KeepsJoined t db db'
  unchanged := SameCommitted
  needs := TenureNeeds
  stays_refl t db := ⟨.refl t db, fun _ _ _ _ live => live⟩
  stays_trans first second := ⟨first.1.trans second.1, first.2.trans first.1 second.2⟩
  stays_of_moves other moved := ⟨moved.1.stays other, moved.2 _⟩
  exec := by
    rintro t s db r db' ⟨lawful, vacated⟩ needs executed
    obtain ⟨kept, moved, same⟩ := (tenantDiscipline _ text).exec lawful trivial executed
    obtain ⟨still, joined⟩ := vacated.exec needs executed
    exact ⟨⟨kept, still⟩, ⟨moved, joined⟩, same⟩
  crash := by
    rintro t db ⟨lawful, vacated⟩
    obtain ⟨kept, moved, same⟩ := (tenantDiscipline τ text).crash (t := t) lawful
    exact ⟨⟨kept, vacated.rollback t⟩, ⟨moved, fun u => keepsJoined_of_committed same.organisations⟩,
      same⟩
  env := by
    rintro db db' ⟨lawful, vacated⟩ moved
    obtain ⟨kept, stays, same⟩ := (tenantDiscipline τ text).env lawful moved
    obtain ⟨clock, rfl⟩ := moved
    exact ⟨⟨kept, vacated.committed, vacated.marking, vacated.joining, vacated.late⟩,
      fun t => ⟨stays t, keepsJoined_of_committed fun _ => rfl⟩, same⟩
  unchanged_refl := .refl
  differ := rollback_ne_commit
  rollback_needs t db := ⟨rfl, rfl, nofun⟩
  rollback_ok := rollback_ok
  certain := rollback_certain τ text

def vacatedTerms (τ : Type) [DecidableEq τ] (text : TextOps) : Terms (vacatedDiscipline τ text) where
  promise _ _ _ := True
  allowed := DeletionApart
  shows t s db := s.isTenure = true ∧ (s = .commit → JoinsLive t db)
  unbroken _ _ _ _ := trivial
  enough _ apart shown := ⟨shown.1, apart, shown.2⟩
  rollback_shows _ _ := ⟨rfl, nofun⟩

abbrev vacatedContract (τ : Type) [DecidableEq τ] (text : TextOps) : Contract τ Statement (Db τ) :=
  (vacatedTerms τ text).contract

theorem joinsLive_stable : (vacatedContract τ text).Stable t (JoinsLive t) := by
  intro db db' h moved _ k o held active
  obtain ⟨before, same⟩ := moved.stays.1.memberships.keeps.cell_of_held held
  rw [Table.pending_of_cell same] at active
  exact moved.stays.2 k o before active (h k o before active)

/-- The memberships that `t` has prepared, but those of one organisation, are in
    organisations that are not deleted. -/
def JoinsLiveBut (t : τ) (organisation : Uuid) (db : Db τ) : Prop :=
  ∀ k o, db.memberships.holder k = some t → isActiveIn o (db.memberships.pending k) = true →
    o = organisation ∨ isMarkedDeleted (db.organisations.committed o) = false

theorem joinsLiveBut_stable {organisation : Uuid} :
    (vacatedContract τ text).Stable t (JoinsLiveBut t organisation) := by
  intro db db' h moved _ k o held active
  obtain ⟨before, same⟩ := moved.stays.1.memberships.keeps.cell_of_held held
  rw [Table.pending_of_cell same] at active
  exact (h k o before active).imp_right (moved.stays.2 k o before active)

/-! ## The check after the insert -/

theorem isTenure_of_isStaying (h : s.isStaying = true) : s.isTenure = true := by
  unfold Statement.isStaying at h
  split at h
  · cases h
  · cases h
  · cases h
  · exact h

theorem JoinsLive.changeMembership (h : JoinsLive t db) (vacated : Vacated db) {id : Uuid}
    {n : Membership} (keeps : n.isActive = true → db.memberships.view t id = some n) :
    JoinsLive t { db with memberships := db.memberships.put t id (some n) } := by
  intro k o held active
  by_cases same : k = id
  · subst same
    simp only [Table.pending_put_same] at active
    have seen := keeps (by simp [isActiveIn] at active; exact active.1)
    by_cases mine : db.memberships.holder k = some t
    · exact h k o mine (by rw [← Table.view_of_held mine, seen]; exact active)
    · rw [Table.view_of_not_held mine] at seen
      exact vacated.committed (k := k) (by rw [seen]; exact active)
  · exact h k o (by simpa [Table.holder_put_other same] using held)
      (by simpa [Table.pending_put_other same] using active)

theorem JoinsLive.staying (h : JoinsLive t db) (vacated : Vacated db) (staying : s.isStaying = true)
    {r : Except AppError (Answer s)} (executed : exec text t s db = some (r, db')) :
    JoinsLive t db' := by
  cases exec_tenureWrite (isTenure_of_isStaying staying) executed with
  | same organisations memberships =>
      intro k o held active
      rw [memberships] at held active
      rw [organisations]
      exact h k o held active
  | insertOrganisation | softDelete =>
      intro k o held active
      simpa using h k o held active
  | insertMembership id m is => simp [is, Statement.isStaying] at staying
  | changeMembership id n free keeps => exact h.changeMembership vacated keeps
  | commit is => simp [is, Statement.isStaying] at staying
  | rollback is => simp [is, Statement.isStaying] at staying

/-- A deleted organisation has no active owner for anyone. -/
theorem Vacated.no_owner (h : Vacated db) {organisation : Uuid}
    (deleted : isMarkedDeleted (db.organisations.committed organisation) = true) :
    (db.memberships.select t fun _ m =>
      m.organisationId == organisation && m.isActiveOwner) = [] := by
  rw [List.eq_nil_iff_forall_not_mem]
  rintro ⟨k, m⟩ member
  obtain ⟨seen, matched⟩ := Table.mem_select.mp member
  simp only [Bool.and_eq_true, beq_iff_eq] at matched
  obtain ⟨rfl, owner⟩ := matched
  by_cases mine : db.memberships.holder k = some t
  · simp [h.late (Table.view_of_held mine ▸ seen) owner] at deleted
  · rw [Table.view_of_not_held mine] at seen
    have live := h.committed (k := k) (seen ▸ isActiveIn_self (isActive_of_owner owner))
    simp [live] at deleted

theorem triple_staying {α : Type} {body : Tx α} (only : body.Only (·.isStaying = true)) :
    Triple (machine τ text) (vacatedContract τ text) t (JoinsLive t) body fun _ => JoinsLive t :=
  Terms.triple_only joinsLive_stable nofun
    (fun s _ staying _ _ => ⟨isTenure_of_isStaying staying, fun is => by
      simp [is, Statement.isStaying] at staying⟩)
    (fun _ _ _ _ staying h holds _ executed => h.staying holds.2 staying executed) only

/-- A membership is only added if its organisation has one owner then, so it is not deleted. -/
theorem insertMembership_triple (id : Uuid) (m : Membership) :
    Triple (machine τ text) (vacatedContract τ text) t (JoinsLive t) (insertMembership id m)
      fun _ => JoinsLive t := by
  have inserted : Triple (machine τ text) (vacatedContract τ text) t (JoinsLive t)
      (sql (.insertMembership id m)) fun _ => JoinsLiveBut t m.organisationId := by
    refine Terms.triple_stmt joinsLive_stable nofun (fun _ _ _ => ⟨rfl, nofun⟩) ?_
    intro db _ db' h holds _ executed k o held active
    change exec text t (.insertMembership id m) db = _ at executed
    cases exec_tenureWrite rfl executed with
    | same organisations memberships =>
        rw [memberships] at held active
        rw [organisations]
        exact .inr (h k o held active)
    | insertMembership j n is free =>
        cases is
        by_cases same : k = id
        · subst same
          simp only [Table.pending_put_same, isActiveIn, Option.any_some, Bool.and_eq_true,
            beq_iff_eq] at active
          exact .inl active.2.symm
        · exact .inr (h k o (by simpa [Table.holder_put_other same] using held)
            (by simpa [Table.pending_put_other same] using active))
    | insertOrganisation => exact .inr (by simpa using h k o held active)
    | softDelete _ _ _ is => cases is
    | changeMembership j n free keeps =>
        exact .inr (h.changeMembership holds.2 keeps k o held active)
    | commit is => cases is
    | rollback is => cases is
  have counted : Triple (machine τ text) (vacatedContract τ text) t (JoinsLiveBut t m.organisationId)
      (sql (.countActiveOwners m.organisationId)) fun n db => n = 1 → JoinsLive t db := by
    refine Terms.triple_stmt joinsLiveBut_stable nofun (fun _ _ _ => ⟨rfl, nofun⟩) ?_
    intro db n db' h holds _ executed
    cases executed
    intro one k o held active
    rcases h k o held active with rfl | live
    · by_contra deleted
      simp [holds.2.no_owner (by simpa using deleted)] at one
    · exact live
  refine inserted.bind fun _ => Triple.bind (B := fun _ => JoinsLive t) ?_ fun _ =>
    .pure fun _ h => h
  refine counted.bind fun n => ?_
  exact Triple.raiseIf.weaken (fun _ h => h) fun _ _ h => h.1 (not_not.mp h.2)

end Contract

/-! ## The operations -/

inductive MembershipOp where
  | acceptInvite (request : AcceptInviteCall)
  | createMembership (user organisation : Uuid) (role : MembershipRole) (newMembershipId : Uuid)
  | transferMembership (user organisation : Uuid) (role : MembershipRole) (newMembershipId : Uuid)
  | createOrganisation (identity : AuthenticatedPrincipal) (name slug : String) (ids : OnboardingIds)
  | softDelete (organisation actor : Uuid) (auditActor : Option Uuid)

/-- The program of an operation, without its result. -/
def MembershipOp.program (text : TextOps) : MembershipOp → Tx Unit
  | .acceptInvite request => do let _ ← Tenancy.acceptInvite text request
  | .createMembership user organisation role newId => do
      let _ ← inTransaction (Tenancy.createMembership user organisation role newId)
  | .transferMembership user organisation role newId => do
      let _ ← Tenancy.transferMembership user organisation role newId
  | .createOrganisation identity name slug ids => do
      let _ ← createOrganisationForCurrentUser text identity name slug ids
  | .softDelete organisation actor auditActor => Tenancy.softDelete organisation actor auditActor

section Operations

variable {t : τ} {db : Db τ}

theorem staying_of_isQuiet (s : Statement) (quiet : s.isQuiet = true) : s.isStaying = true := by
  cases s <;> first | rfl | cases quiet

theorem staying_of_writesUser (s : Statement) (writes : s.writesUser = true) :
    s.isStaying = true := by
  cases s <;> first | rfl | cases writes

theorem createMembership_triple (user organisation : Uuid) (role : MembershipRole) (id : Uuid) :
    Triple (machine τ text) (vacatedContract τ text) t (JoinsLive t)
      (createMembership user organisation role id) fun _ => JoinsLive t := by
  refine (triple_staying (sql_only staying_of_isQuiet rfl)).bind fun existing => ?_
  refine (triple_staying only_raiseIf).bind fun _ => ?_
  refine (insertMembership_triple id _).handle_raise fun e => ?_
  split <;> exact ⟨_, rfl⟩

theorem createOrganisation_staying (name slug : String) (id : Uuid) :
    (createOrganisation text name slug id).Only (·.isStaying = true) := by
  refine only_bind (only_bind only_raiseIf fun _ => only_pure _) fun _ => ?_
  refine only_bind (only_bind only_raiseIf fun _ => only_bind only_raiseIf fun _ => only_pure _)
    fun _ => ?_
  refine only_bind (sql_only staying_of_isQuiet rfl) fun _ => ?_
  refine only_bind only_raiseIf fun _ => ?_
  exact onIntegrityError_only (only_bind (only_stmt.mpr rfl) fun _ => only_pure _) (only_raise _)

/-- A transaction that ends with what it has prepared in organisations that live. -/
theorem wp_joinsLive {α : Type} {body : Tx α} (start : JoinsLive t db)
    (run : Triple (machine τ text) (vacatedContract τ text) t (JoinsLive t) body
      fun _ => JoinsLive t) :
    wp (machine τ text) (vacatedContract τ text) t (inTransaction body) (fun _ _ => True) db :=
  Terms.wp_block run (fun _ => joinsLive_stable) (fun _ _ h _ => ⟨rfl, fun _ => h⟩)
    (fun _ _ _ _ _ _ _ => ⟨trivial, fun _ _ => trivial⟩) (fun _ _ _ _ _ _ => trivial) start

theorem MembershipOp.program_wp (op : MembershipOp) (start : JoinsLive t db) :
    wp (machine τ text) (vacatedContract τ text) t (op.program text) (fun _ _ => True) db := by
  have quiet := staying_of_isQuiet
  have users := staying_of_writesUser
  cases op with
  | acceptInvite request =>
      refine Terms.wp_result (wp_joinsLive start ?_)
      refine (triple_staying (sql_only quiet rfl)).bind fun now => ?_
      refine (triple_staying (only_stmt.mpr rfl)).bind fun found => ?_
      cases found with
      | none => exact triple_staying (only_bind (only_stmt.mpr rfl) fun _ => only_raise _)
      | some row =>
          refine (triple_staying only_raiseIf).bind fun _ => ?_
          refine (triple_staying only_raiseIf).bind fun _ => ?_
          refine (triple_staying (getOrCreateCurrentUser_only quiet users _ _)).bind fun user => ?_
          refine (triple_staying only_raiseIf).bind fun _ => ?_
          refine (triple_staying (getOrganisation_only quiet _)).bind fun _ => ?_
          exact (triple_staying only_raiseIf).bind fun _ => createMembership_triple _ _ _ _
  | createMembership user organisation role newId =>
      exact Terms.wp_result (wp_joinsLive start (createMembership_triple _ _ _ _))
  | transferMembership user organisation role newId =>
      refine Terms.wp_result (wp_joinsLive start ?_)
      refine (triple_staying (sql_only quiet rfl)).bind fun existing => ?_
      refine Triple.bind (B := fun _ => JoinsLive t) (triple_staying ?_) fun _ => ?_
      · cases existing with
        | none => exact only_pure _
        | some row =>
            refine only_bind only_raiseIf fun _ => ?_
            exact only_bind (only_stmt.mpr rfl) fun _ => ensureExactlyOneActiveOwner_only quiet _
      · refine (insertMembership_triple newId _).handle_raise fun e => ?_
        split <;> exact ⟨_, rfl⟩
  | createOrganisation identity name slug ids =>
      refine Terms.wp_result (wp_joinsLive start ?_)
      refine (triple_staying (getOrCreateCurrentUser_only quiet users _ _)).bind fun user => ?_
      refine (triple_staying only_raiseIf).bind fun _ => ?_
      refine (triple_staying only_raiseIf).bind fun _ => ?_
      refine (triple_staying (sql_only quiet rfl)).bind fun _ => ?_
      refine (triple_staying only_raiseIf).bind fun _ => ?_
      refine (triple_staying (createOrganisation_staying _ _ _)).bind fun organisation => ?_
      refine (createMembership_triple _ _ _ _).bind fun membership => ?_
      exact triple_staying (only_bind (markOnboardingCompleted_only users _ _) fun _ => only_pure _)
  | softDelete organisation actor auditActor =>
      refine Terms.wp_checked (wp_joinsLive start (triple_staying ?_))
      refine only_bind (getOrganisation_only quiet _) fun _ => ?_
      refine only_bind (getUserById_only quiet _) fun _ => ?_
      refine only_bind only_raiseIf fun _ => only_bind only_raiseIf fun _ => ?_
      refine only_bind (sql_only quiet rfl) fun _ => only_bind only_raiseIf fun _ => ?_
      refine only_bind (sql_only quiet rfl) fun _ => only_bind only_raiseIf fun _ => ?_
      refine only_bind (sql_only quiet rfl) fun _ => ?_
      refine only_bind (only_bind (sql_only quiet rfl) fun ids => only_forEach fun id _ =>
        only_stmt.mpr rfl) fun _ => ?_
      refine only_bind (sql_only quiet rfl) fun now => ?_
      exact only_bind (only_stmt.mpr rfl) fun _ => sql_only quiet rfl

end Operations

/-! ## Runs -/

/-- Clients that are about to run their operations, on a committed database whose deleted
    organisations have no active membership. -/
structure MembershipStart (text : TextOps) (op : τ → MembershipOp)
    (c : Config τ Statement Answer AppError (Db τ) Unit) : Prop where
  atRest : c.db.AtRest text
  vacated : ∀ {k o}, isActiveIn o (c.db.memberships.committed k) = true →
    isMarkedDeleted (c.db.organisations.committed o) = false
  operations : ∀ t, c.run t = some ((op t).program text)

theorem MembershipStart.safe {op : τ → MembershipOp}
    {c : Config τ Statement Answer AppError (Db τ) Unit} (h : MembershipStart text op c) :
    Contract.Sound.Safe (machine τ text) (vacatedContract τ text) (fun _ _ _ => True) c := by
  have nothing : ∀ k m, c.db.memberships.pending k ≠ some m := by
    intro k m prepared
    obtain ⟨u, held⟩ := Table.held_of_pending prepared
    simp [h.atRest.memberships.unlocked] at held
  refine ⟨⟨h.atRest.lawful, ⟨h.vacated, ?_, ?_, fun here => absurd here (nothing _ _)⟩⟩, ?_⟩
  · intro k o _ marked
    obtain ⟨u, held⟩ := isMarkedDeleted_pending marked
    simp [h.atRest.organisations.unlocked] at held
  · intro k o active
    obtain ⟨u, held⟩ := isActiveIn_pending active
    simp [h.atRest.memberships.unlocked] at held
  · intro t s k running
    have program : (op t).program text = .call s k :=
      Option.some.inj ((h.operations t).symm.trans running)
    rw [← program]
    exact (op t).program_wp fun k o held => by simp [h.atRest.memberships.unlocked] at held

/-- In every run in which memberships and deletions stay apart, deleted organisations have
    no active membership, and no user has two. -/
theorem active_memberships_sound {op : τ → MembershipOp}
    {start d : Config τ Statement Answer AppError (Db τ) Unit} (h : MembershipStart text op start)
    (run : (machine τ text).Reaches DeletionApart start d) :
    (∀ k m, d.db.memberships.committed k = some m → m.isActive = true →
      ¬IsDeleted d.db m.organisationId) ∧
    ∀ j k m n, d.db.memberships.committed j = some m → d.db.memberships.committed k = some n →
      m.isActive = true → n.isActive = true → m.userId = n.userId → j = k := by
  have sound := (vacatedTerms τ text).sound
  obtain ⟨lawful, vacated⟩ := (sound.invariant h.safe run).1
  refine ⟨?_, ?_⟩
  · rintro k m here active ⟨o, there, deleted⟩
    have live := vacated.committed (k := k) (here.symm ▸ isActiveIn_self active)
    simp [there, isMarkedDeleted, deleted] at live
  · intro j k m n here there active active' same
    by_contra differ
    refine lawful.memberships.unique.committed differ ?_
    rw [here, there]
    exact ⟨m, n, .userActive m.userId, rfl, rfl, by simp [Membership.entries, active],
      by simp [Membership.entries, active', same]⟩

/-! ## The two schedules -/

/-- Organisation 1 with owner 100 (membership 10), and user 101 without a membership. -/
def deletionDb : Db Bool where
  users := .ofRows [(100, exampleUser "owner"), (101, exampleUser "user")]
  organisations := .ofRows [(1, ⟨"Org", "org", none, .active⟩)]
  memberships := .ofRows [(10, ⟨100, 1, .owner, true⟩)]
  invites := .ofRows []
  clock := 0

/-- One client adds user 101 to the organisation, the other deletes it. -/
def deletionOp : Bool → MembershipOp
  | false => .createMembership 101 1 .member 11
  | true => .softDelete 1 100 (some 100)

def deletionStart : Config Bool Statement Answer AppError (Db Bool) Unit :=
  ⟨deletionDb, fun t => some ((deletionOp t).program plainText)⟩

theorem deletionStart_start : MembershipStart plainText deletionOp deletionStart where
  atRest := ⟨Table.atRest_ofRows (by decide), Table.atRest_ofRows (by decide),
    Table.atRest_ofRows (by decide), Table.atRest_ofRows (by decide)⟩
  vacated {k o} active := by
    simp only [deletionStart, deletionDb, Table.committed_ofRows] at active ⊢
    cases found : List.lookup o [((1 : Uuid), (⟨"Org", "org", none, .active⟩ : Organisation))] with
    | none => rfl
    | some row =>
        have member := Table.lookup_mem found
        simp only [List.mem_singleton, Prod.mk.injEq] at member
        simp [member.2, isMarkedDeleted, Organisation.isDeleted]
  operations _ := rfl

/-- Is the new membership active, and is the organisation deleted? -/
def membershipAndDeletion (c : Config Bool Statement Answer AppError (Db Bool) Unit) : Bool × Bool :=
  (isActiveIn 1 (c.db.memberships.committed 11), isMarkedDeleted (c.db.organisations.committed 1))

/-- The membership is added, and then the organisation is deleted with it. -/
theorem active_memberships_sound_example :
    ∃ d, (machine Bool plainText).Reaches DeletionApart deletionStart d ∧
      membershipAndDeletion d = (false, true) ∧
      ∀ k m, d.db.memberships.committed k = some m → m.isActive = true →
        ¬IsDeleted d.db m.organisationId := by
  have played : ((machine Bool plainText).play (fun t s db => !meetsDeletion t s db)
      (List.replicate 4 false ++ List.replicate 12 true) deletionStart).map membershipAndDeletion =
        some (false, true) := by decide
  have checked : ∀ (t : Bool) (s : Statement) (db : Db Bool),
      (!meetsDeletion t s db) = true → DeletionApart t s db :=
    fun t s db passed => by simpa [DeletionApart] using passed
  obtain ⟨d, run, seen⟩ := Machine.run_of_play checked played
  exact ⟨d, run, seen, (active_memberships_sound deletionStart_start run).1⟩

/-- The member is inserted after the deletion has looked for memberships, and both commit. -/
theorem member_joins_during_deletion :
    ¬∀ (op : Bool → MembershipOp) (start d : Config Bool Statement Answer AppError (Db Bool) Unit),
      MembershipStart plainText op start →
      (machine Bool plainText).Reaches (fun _ _ _ => True) start d →
      (∀ k m, d.db.memberships.committed k = some m → m.isActive = true →
        ¬IsDeleted d.db m.organisationId) ∧
      ∀ j k m n, d.db.memberships.committed j = some m → d.db.memberships.committed k = some n →
        m.isActive = true → n.isActive = true → m.userId = n.userId → j = k := by
  intro claim
  have played : ((machine Bool plainText).play (fun _ _ _ => true)
      (List.replicate 3 false ++ List.replicate 11 true ++ [false]) deletionStart).map
        membershipAndDeletion = some (true, true) := by decide
  have checked : ∀ (t : Bool) (s : Statement) (db : Db Bool), true = true → True :=
    fun _ _ _ _ => trivial
  obtain ⟨d, run, seen⟩ := Machine.run_of_play checked played
  simp only [membershipAndDeletion, Prod.mk.injEq] at seen
  simp only [isActiveIn, isMarkedDeleted, Option.any_eq_true, Bool.and_eq_true, beq_iff_eq] at seen
  obtain ⟨⟨m, here, active, inOrg⟩, o, there, deleted⟩ := seen
  exact (claim deletionOp deletionStart d deletionStart_start run).1 11 m here active
    ⟨o, inOrg ▸ there, deleted⟩

end SaasTemplate.Tenancy
