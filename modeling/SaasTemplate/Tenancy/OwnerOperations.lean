import SaasTemplate.Tenancy.OwnerContract

/-! # The tenant operations keep the owner contract

Most operations never write a row of an active owner. A transfer counts the owners
after its update, a replacement works on rows it has locked, and a deletion takes the
organisation with its memberships.
-/

set_option linter.unusedSectionVars false

namespace SaasTemplate.Tenancy

open SaasTemplate.Isolation SaasTemplate.Isolation.Prog

variable {τ : Type} [DecidableEq τ] {text : TextOps} {t : τ} {db db' : Db τ}

/-! ## Operations that spare the owners -/

theorem changeMembershipRole_wp (call : MembershipCall) (role : MembershipRole)
    (start : HoldsNoMembership t db) :
    wp (machine τ text) (ownerContract text τ) t (changeMembershipRole call role)
      (fun _ _ => True) db := by
  refine Terms.wp_checked (wp_sparing ?_ start)
  refine only_bind (actorAndTarget_only quiet_spares call) fun _ => ?_
  refine only_bind only_raiseIf fun _ => ?_
  refine only_bind only_raiseIf fun _ => ?_
  refine only_bind only_raiseIf fun _ => ?_
  refine only_bind only_raiseIf fun _ => ?_
  refine only_bind (sql_only quiet_spares rfl) fun _ => ?_
  refine only_bind (only_stmt.mpr rfl) fun _ => ?_
  exact only_bind (sql_only quiet_spares rfl) fun _ => only_pure _

theorem removeMembership_wp (call : MembershipCall) (start : HoldsNoMembership t db) :
    wp (machine τ text) (ownerContract text τ) t (removeMembership call) (fun _ _ => True) db := by
  refine Terms.wp_checked (wp_sparing ?_ start)
  refine only_bind (actorAndTarget_only quiet_spares call) fun _ => ?_
  refine only_bind only_raiseIf fun _ => ?_
  refine only_bind only_raiseIf fun _ => ?_
  refine only_bind only_raiseIf fun _ => ?_
  refine only_bind (sql_only quiet_spares rfl) fun _ => ?_
  refine only_bind (only_stmt.mpr rfl) fun _ => ?_
  exact only_bind (sql_only quiet_spares rfl) fun _ => only_pure _

theorem deactivateMembership_wp (membership organisation : Uuid) (start : HoldsNoMembership t db) :
    wp (machine τ text) (ownerContract text τ) t (deactivateMembership membership organisation)
      (fun _ _ => True) db := by
  refine wp_sparing ?_ start
  refine only_bind (getMembershipForOrganisation_only quiet_spares _ _) fun target => ?_
  refine only_bind ?_ fun _ => only_bind (only_stmt.mpr rfl) fun _ => only_pure _
  unfold ensureOwnerInvariantBeforeDeactivation
  split
  · exact only_pure _
  · exact only_bind (sql_only quiet_spares rfl) fun _ => only_raiseIf

theorem acceptInvite_wp (call : AcceptInviteCall) (start : HoldsNoMembership t db) :
    wp (machine τ text) (ownerContract text τ) t (acceptInvite text call) (fun _ _ => True) db := by
  refine wp_sparing ?_ start
  refine only_bind (sql_only quiet_spares rfl) fun _ => ?_
  refine only_bind (only_stmt.mpr rfl) fun invite => ?_
  cases invite with
  | none => exact only_bind (only_stmt.mpr rfl) fun _ => only_raise _
  | some row => exact acceptFoundInvite_only quiet_spares writesUser_spares fun _ => rfl

theorem createOrganisationForCurrentUser_wp (identity : AuthenticatedPrincipal)
    (name slug : String) (ids : OnboardingIds) (start : HoldsNoMembership t db) :
    wp (machine τ text) (ownerContract text τ) t
      (createOrganisationForCurrentUser text identity name slug ids) (fun _ _ => True) db := by
  refine wp_sparing ?_ start
  refine only_bind (getOrCreateCurrentUser_only quiet_spares writesUser_spares _ _) fun _ => ?_
  refine only_bind only_raiseIf fun _ => ?_
  refine only_bind only_raiseIf fun _ => ?_
  refine only_bind (sql_only quiet_spares rfl) fun _ => ?_
  refine only_bind only_raiseIf fun _ => ?_
  refine only_bind (createOrganisation_only quiet_spares fun _ => rfl) fun _ => ?_
  refine only_bind (createMembership_only quiet_spares rfl) fun _ => ?_
  exact only_bind (markOnboardingCompleted_only writesUser_spares _ _) fun _ => only_pure _

/-! ## Transfer: the count after the update -/

/-- Row `id` belongs to the organisation. -/
def BelongsTo (id organisation : Uuid) (db : Db τ) : Prop :=
  ∃ m, db.memberships.committed id = some m ∧ m.organisationId = organisation

theorem BelongsTo.stays {id organisation : Uuid} (h : BelongsTo id organisation db)
    (moved : Db.Stays t db db') : BelongsTo id organisation db' := by
  obtain ⟨m, here, inOrg⟩ := h
  obtain ⟨n, there, same⟩ := moved.memberships.evolves id m here
  exact ⟨n, there, same.2.trans inOrg⟩

/-- The only membership the transaction holds is `id`, which it has deactivated. -/
structure LeftOnly (t : τ) (id organisation : Uuid) (db : Db τ) : Prop where
  only : ∀ k, db.memberships.holder k = some t → k = id
  inactive : db.memberships.holder id = some t →
    ∀ m, db.memberships.pending id = some m → m.isActive = false
  belongs : BelongsTo id organisation db

theorem leftOnly_stable {id organisation : Uuid} :
    (ownerContract text τ).Stable t (LeftOnly t id organisation) := by
  intro db db' h moved _
  refine ⟨fun k held => h.only k (moved.stays.memberships.keeps.held_iff.mp held), fun held m here => ?_,
    h.belongs.stays moved.stays⟩
  obtain ⟨before, same⟩ := moved.stays.memberships.keeps.cell_of_held held
  exact h.inactive before m (by rwa [Table.pending_of_cell same] at here)

/-- A count of one active owner shows that the deactivated row was not the owner's. -/
theorem LeftOnly.harmless {id organisation : Uuid} (h : LeftOnly t id organisation db)
    (lawful : db.Lawful text)
    (counted : (db.memberships.select t fun _ m =>
      m.organisationId == organisation && m.isActiveOwner).length = 1) : Harmless t db := by
  intro k m held here
  by_contra owner
  obtain ⟨⟨j, n⟩, listed⟩ := List.length_eq_one_iff.mp counted
  have member : (j, n) ∈ db.memberships.select t fun _ m =>
      m.organisationId == organisation && m.isActiveOwner := by simp [listed]
  obtain ⟨seen, inOrg, owner'⟩ : db.memberships.view t j = some n ∧
      n.organisationId = organisation ∧ n.isActiveOwner = true := by
    simpa using Table.mem_select.mp member
  obtain rfl := h.only k held
  obtain ⟨m', here', inOrg'⟩ := h.belongs
  obtain rfl : m = m' := Option.some.inj (here.symm.trans here')
  have differ : j ≠ k := by
    rintro rfl
    have gone := h.inactive held n ((Table.view_of_held held).symm.trans seen)
    simp [Membership.isActiveOwner, gone] at owner'
  have notHeld : db.memberships.holder j ≠ some t := fun held' => differ (h.only j held')
  refine lawful.memberships.unique.committed differ ?_
  rw [here, ← Table.view_of_not_held notHeld, seen]
  exact clash_of_activeOwners owner' (by simpa using owner) (inOrg.trans inOrg'.symm)

theorem deactivate_leftOnly {id organisation : Uuid} (start : HoldsNoMembership t db)
    (belongs : BelongsTo id organisation db) {r : Except AppError Unit}
    (executed : exec text t (.deactivate .transferMembership id) db = some (r, db')) :
    LeftOnly t id organisation db' := by
  obtain ⟨r', executed⟩ := flushed_eq executed
  obtain ⟨T, updated, rfl⟩ := onMemberships_eq executed
  rcases Table.update_cases updated with ⟨rfl, -⟩ | ⟨m, n, -, changed, -, rfl, -⟩
  · exact ⟨fun k held => absurd held (start k), fun held => absurd held (start id), belongs⟩
  · cases changed
    refine ⟨fun k held => ?_, fun _ n here => ?_, by simpa [BelongsTo] using belongs⟩
    · by_contra differ
      exact start k (by simpa [Table.holder_put_other differ] using held)
    · obtain rfl : { m with isActive := false } = n := by simpa using here
      rfl

/-- What the lookup of the present membership tells about its row. -/
def ExistingBelongs (existing : Option (Uuid × Membership)) (db : Db τ) : Prop :=
  ∀ id m, existing = some (id, m) → BelongsTo id m.organisationId db

theorem leaveForTransfer_triple (existing : Option (Uuid × Membership)) (organisation : Uuid) :
    Triple (machine τ text) (ownerContract text τ) t
      (fun db => HoldsNoMembership t db ∧ ExistingBelongs existing db)
      (leaveForTransfer existing organisation) fun _ => Harmless t := by
  cases existing with
  | none => exact .pure fun db start => start.1.harmless
  | some row =>
      obtain ⟨id, existing⟩ := row
      refine .bind .raiseIf fun _ => ?_
      refine .bind (B := fun _ => LeftOnly t id existing.organisationId)
        (triple_sql ?_ nofun ?_) fun _ => ?_
      · exact fun db db' start moved lawful => ⟨⟨holdsNoMembership_stable db db' start.1.1 moved lawful,
          fun id m same => (start.1.2 id m same).stays moved.stays⟩, start.2⟩
      · rintro db _ db' ⟨⟨start, belongs⟩, -⟩ - - executed
        exact deactivate_leftOnly start (belongs id existing rfl) executed
      · refine .bind (B := fun count db => count = 1 → Harmless t db)
          (triple_sql leftOnly_stable nofun ?_)
          fun count => Triple.raiseIf.weaken (fun _ h => h) fun _ _ h => h.1 (by simpa using h.2)
        rintro db count db' left lawful - executed counted
        cases executed
        exact left.harmless lawful counted

theorem transferMembership_wp (user organisation : Uuid) (role : MembershipRole) (newId : Uuid)
    (start : HoldsNoMembership t db) :
    wp (machine τ text) (ownerContract text τ) t
      (transferMembership user organisation role newId) (fun _ _ => True) db := by
  refine wp_balanced ?_ start
  refine .bind (B := fun existing db => HoldsNoMembership t db ∧ ExistingBelongs existing db)
    (triple_sql holdsNoMembership_stable nofun ?_) fun existing => ?_
  · rintro db existing db' start - - executed
    cases executed
    refine ⟨start, fun id m found => ⟨m, ?_, rfl⟩⟩
    exact (Table.view_of_not_held (start id)).symm.trans (Table.selectOne_spec found).1
  · refine .bind (leaveForTransfer_triple existing organisation) fun _ => ?_
    refine (triple_spares ?_).weaken (fun _ h => h) fun _ _ => Harmless.balanced
    exact onIntegrityError_only (insertMembership_only quiet_spares rfl) (only_raise _)

/-! ## Replacement and deletion: one organisation at a time -/

/-- All memberships the transaction holds belong to one organisation. -/
def HoldsOnly (t : τ) (organisation : Uuid) (db : Db τ) : Prop :=
  ∀ k m, db.memberships.holder k = some t → db.memberships.committed k = some m →
    m.organisationId = organisation

/-- The transaction holds an active membership of the organisation. -/
def HoldsActive (t : τ) (k organisation : Uuid) (db : Db τ) : Prop :=
  db.memberships.holder k = some t ∧ ∃ m, db.memberships.pending k = some m ∧
    m.isActive = true ∧ m.organisationId = organisation

/-- The transaction has prepared an active owner of the organisation. -/
def OwnerPrepared (t : τ) (k organisation : Uuid) (db : Db τ) : Prop :=
  db.memberships.holder k = some t ∧ ∃ m, db.memberships.pending k = some m ∧
    m.isActiveOwner = true ∧ m.organisationId = organisation

def DeletionPrepared (t : τ) (organisation : Uuid) (db : Db τ) : Prop :=
  db.organisations.holder organisation = some t ∧
    ∃ o, db.organisations.pending organisation = some o ∧ o.isDeleted = true

variable {organisation k : Uuid}

theorem holdsOnly_stable : (ownerContract text τ).Stable t (HoldsOnly t organisation) := by
  intro db db' h moved _ k m held here
  obtain ⟨before, same⟩ := moved.stays.memberships.keeps.cell_of_held held
  exact h k m before (by rwa [Table.committed_of_cell same] at here)

theorem HoldsActive.stays (h : HoldsActive t k organisation db) (moved : Db.Stays t db db') :
    HoldsActive t k organisation db' :=
  ⟨moved.memberships.keeps.held_iff.mpr h.1, by
    rw [Table.pending_of_cell (moved.memberships.keeps.cell h.1)]; exact h.2⟩

theorem OwnerPrepared.stays (h : OwnerPrepared t k organisation db) (moved : Db.Stays t db db') :
    OwnerPrepared t k organisation db' :=
  ⟨moved.memberships.keeps.held_iff.mpr h.1, by
    rw [Table.pending_of_cell (moved.memberships.keeps.cell h.1)]; exact h.2⟩

theorem DeletionPrepared.stays (h : DeletionPrepared t organisation db)
    (moved : Db.Stays t db db') : DeletionPrepared t organisation db' :=
  ⟨moved.organisations.keeps.held_iff.mpr h.1, by
    rw [Table.pending_of_cell (moved.organisations.keeps.cell h.1)]; exact h.2⟩

theorem HoldsNoMembership.holdsOnly (h : HoldsNoMembership t db) : HoldsOnly t organisation db :=
  fun k _ held => absurd held (h k)

theorem balanced_of_owner (only : HoldsOnly t organisation db)
    (prepared : OwnerPrepared t k organisation db) : Balanced t db := by
  intro j m held here _
  obtain ⟨held', n, here', owner, inOrg⟩ := prepared
  exact .inl ⟨k, n, held', here', owner, inOrg.trans (only j m held here).symm⟩

theorem balanced_of_deletion (only : HoldsOnly t organisation db)
    (prepared : DeletionPrepared t organisation db) : Balanced t db := by
  intro j m held here _
  obtain rfl := only j m held here
  obtain ⟨heldO, o, here', gone⟩ := prepared
  exact .inr ⟨o, heldO, here', gone⟩

/-- Writing a row that is seen to belong to the organisation. -/
theorem HoldsOnly.put (h : HoldsOnly t organisation db) (lawful : db.Lawful text) {m : Membership}
    (seen : db.memberships.view t k = some m) (inOrg : m.organisationId = organisation)
    {r : Option Membership} :
    HoldsOnly t organisation { db with memberships := db.memberships.put t k r } := by
  intro j n held here
  rw [Table.committed_put] at here
  by_cases same : j = k
  · subst same
    obtain ⟨m', seen', -, sameOrg⟩ := lawful.memberships.follows.view t j n here
    obtain rfl : m = m' := Option.some.inj (seen.symm.trans seen')
    exact sameOrg.symm.trans inOrg
  · exact h j n (by simpa [Table.holder_put_other same] using held) here

/-- The rows locked so far, as they were returned. -/
def Locked (t : τ) (organisation : Uuid) (rows : List (Uuid × Membership)) (db : Db τ) : Prop :=
  HoldsOnly t organisation db ∧ ∀ k m, (k, m) ∈ rows → HoldsActive t k organisation db

theorem locked_stable {rows : List (Uuid × Membership)} :
    (ownerContract text τ).Stable t (Locked t organisation rows) :=
  fun db db' h moved lawful => ⟨holdsOnly_stable db db' h.1 moved lawful,
    fun k m member => (h.2 k m member).stays moved.stays⟩

theorem lockActiveMembership_locked {rows : List (Uuid × Membership)} {out : Option Membership}
    (h : Locked t organisation rows db) (lawful : db.Lawful text)
    (executed : exec text t (.lockActiveMembership k organisation) db = some (.ok out, db')) :
    Locked t organisation (rows ++ (out.map fun m => (k, m)).toList) db' := by
  obtain ⟨⟨row, T⟩, locked, same⟩ := Option.map_eq_some_iff.mp executed
  cases same
  rcases Table.lockRow_cases locked with ⟨rfl, rfl, -⟩ | ⟨m, seen, holds, -, rfl, rfl⟩
  · simpa using h
  · obtain ⟨inOrg, active⟩ : m.organisationId = organisation ∧ m.isActive = true := by
      simpa using holds
    have mine : HoldsActive t k organisation
        { db with memberships := db.memberships.put t k (some m) } :=
      ⟨Table.holder_put_same _ _ _ _, m, Table.pending_put_same _ _ _ _, active, inOrg⟩
    refine ⟨h.1.put lawful seen inOrg, fun j n member => ?_⟩
    by_cases same : j = k
    · exact same ▸ mine
    · have before : (j, n) ∈ rows := by simpa [same] using member
      simpa [HoldsActive, Table.holder_put_other same, Table.pending_put_other same]
        using h.2 j n before

theorem lockActiveMemberships_triple :
    Triple (machine τ text) (ownerContract text τ) t (HoldsNoMembership t)
      (lockActiveMemberships organisation) fun rows => Locked t organisation rows := by
  refine .bind (B := fun _ => HoldsNoMembership t)
    (triple_sql holdsNoMembership_stable nofun ?_) fun ids => ?_
  · rintro db ids db' start - - executed
    cases executed
    exact start
  · refine (Triple.collect (A := Locked t organisation) ?_ []).weaken
      (fun _ start => ⟨start.holdsOnly, nofun⟩) fun rows _ h => by simpa using h
    intro id _ rows
    refine .bind (B := fun out => Locked t organisation (rows ++ (out.map fun m => (id, m)).toList))
      (triple_sql locked_stable nofun ?_) fun out => .pure fun _ h => h
    exact fun db out db' h lawful _ executed => lockActiveMembership_locked h lawful executed

/-- A role written to a row that is already locked. -/
theorem updateRole_held {writer : Writer} {role : MembershipRole}
    (h : HoldsActive t k organisation db) {a : Unit}
    (executed : exec text t (.updateRole writer k role) db = some (.ok a, db')) :
    ∃ m, db.memberships.view t k = some m ∧ m.isActive = true ∧ m.organisationId = organisation ∧
      db' = { db with memberships := db.memberships.put t k (some { m with role }) } := by
  obtain ⟨held, m, here, active, inOrg⟩ := h
  have seen : db.memberships.view t k = some m := (Table.view_of_held held).trans here
  simp only [exec, updateMembership, flushed, Option.map_eq_some_iff] at executed
  obtain ⟨⟨r, db''⟩, executed, same⟩ := executed
  obtain ⟨T, updated, rfl⟩ := onMemberships_eq executed
  rcases Table.update_cases updated with ⟨rfl, failed⟩ | ⟨m', n, seen', changed, -, rfl, rfl⟩
  · rcases failed with rfl | ⟨rfl, -⟩ <;> cases same
  · obtain rfl : m = m' := Option.some.inj (seen.symm.trans seen')
    cases changed
    cases same
    exact ⟨m, seen, active, inOrg, rfl⟩

theorem replaceOwner_triple (sourceId replacementId : Uuid) :
    Triple (machine τ text) (ownerContract text τ) t (HoldsNoMembership t)
      (replaceOwner organisation sourceId replacementId) fun _ => Balanced t := by
  refine .bind lockActiveMemberships_triple fun rows => ?_
  refine .bind .orRaise fun source => .bind .orRaise fun replacement => ?_
  refine .bind .raiseIf fun _ => .bind .raiseIf fun _ => ?_
  let Both (db : Db τ) : Prop := HoldsOnly t organisation db ∧
    HoldsActive t sourceId organisation db ∧ HoldsActive t replacementId organisation db
  let Last (db : Db τ) : Prop := HoldsOnly t organisation db ∧
    HoldsActive t replacementId organisation db
  let Done (db : Db τ) : Prop := HoldsOnly t organisation db ∧
    OwnerPrepared t replacementId organisation db
  have both_stable : (ownerContract text τ).Stable t Both := fun db db' h moved lawful =>
    ⟨holdsOnly_stable db db' h.1 moved lawful, h.2.1.stays moved.stays, h.2.2.stays moved.stays⟩
  have last_stable : (ownerContract text τ).Stable t Last := fun db db' h moved lawful =>
    ⟨holdsOnly_stable db db' h.1 moved lawful, h.2.stays moved.stays⟩
  have done_stable : (ownerContract text τ).Stable t Done := fun db db' h moved lawful =>
    ⟨holdsOnly_stable db db' h.1 moved lawful, h.2.stays moved.stays⟩
  have demote : Triple (machine τ text) (ownerContract text τ) t Both
      (sql (.updateRole .replaceOwnerMembership sourceId .admin)) fun _ => Last := by
    refine triple_sql both_stable nofun fun db a db' h lawful _ executed => ?_
    obtain ⟨m, seen, active, inOrg, rfl⟩ := updateRole_held h.2.1 executed
    refine ⟨h.1.put lawful seen inOrg, ?_⟩
    by_cases same : replacementId = sourceId
    · exact ⟨by simp [same], { m with role := .admin }, by simp [same], active, inOrg⟩
    · simpa [HoldsActive, Table.holder_put_other same, Table.pending_put_other same] using h.2.2
  have promote : Triple (machine τ text) (ownerContract text τ) t Last
      (sql (.updateRole .replaceOwnerMembership replacementId .owner)) fun _ => Done := by
    refine triple_sql last_stable nofun fun db a db' h lawful _ executed => ?_
    obtain ⟨m, seen, active, inOrg, rfl⟩ := updateRole_held h.2 executed
    exact ⟨h.1.put lawful seen inOrg, by simp, { m with role := .owner }, by simp,
      by simpa [Membership.isActiveOwner] using active, inOrg⟩
  have recount : Triple (machine τ text) (ownerContract text τ) t Done
      (ensureExactlyOneActiveOwner organisation) fun _ => Done :=
    triple_quiet done_stable (ensureExactlyOneActiveOwner_only (fun _ h => h) _)
  refine .bind (demote.weaken (fun db h => ?_) fun _ _ h => h) fun _ => ?_
  · obtain ⟨⟨⟨⟨⟨only, rows⟩, foundSource⟩, foundReplacement⟩, -⟩, -⟩ := h
    exact ⟨only, rows _ _ (Table.lookup_mem foundSource),
      rows _ _ (Table.lookup_mem foundReplacement)⟩
  · refine .bind promote fun _ => .bind recount fun _ => .pure fun db h => ?_
    exact balanced_of_owner h.1 h.2

theorem replaceOwnerMembership_wp (sourceId replacementId : Uuid)
    (start : HoldsNoMembership t db) :
    wp (machine τ text) (ownerContract text τ) t
      (replaceOwnerMembership organisation sourceId replacementId) (fun _ _ => True) db :=
  Terms.wp_checked (wp_balanced (replaceOwner_triple sourceId replacementId) start)

theorem emergencyReplaceOrganisationOwner_wp (sourceId replacementId : Uuid)
    (start : HoldsNoMembership t db) :
    wp (machine τ text) (ownerContract text τ) t
      (emergencyReplaceOrganisationOwner organisation sourceId replacementId)
      (fun _ _ => True) db := by
  refine wp_balanced (.bind .raiseIf fun _ => ?_) start
  refine .bind ((replaceOwner_triple sourceId replacementId).weaken (fun _ h => h.1) fun _ _ h => h)
    fun _ => ?_
  exact .bind (triple_quiet balanced_stable (sql_only (fun _ h => h) rfl)) fun _ => .pure fun _ h => h

/-- Deactivating the rows of one organisation. -/
theorem deactivateIfActive_holdsOnly {a : Unit} (h : HoldsOnly t organisation db)
    (lawful : db.Lawful text)
    (executed : exec text t (.deactivateIfActive k organisation) db = some (.ok a, db')) :
    HoldsOnly t organisation db' := by
  obtain ⟨⟨r, db''⟩, here, same⟩ := Option.map_eq_some_iff.mp executed
  obtain rfl : db'' = db' := congrArg Prod.snd same
  obtain ⟨T, updated, rfl⟩ := onMemberships_eq here
  rcases Table.update_cases updated with ⟨rfl, -⟩ | ⟨m, n, seen, changed, -, rfl, -⟩
  · exact h
  · unfold updateIf at changed
    split at changed
    · rename_i matched
      simp only [Bool.and_eq_true, beq_iff_eq] at matched
      exact h.put lawful seen matched.1
    · cases changed

theorem softDeleteOrganisation_prepared {now : Time} {a : Unit}
    (executed : exec text t (.softDeleteOrganisation organisation now) db = some (.ok a, db')) :
    db'.memberships = db.memberships ∧ DeletionPrepared t organisation db' := by
  simp only [exec, flushed, Option.map_eq_some_iff] at executed
  obtain ⟨⟨r, db''⟩, executed, same⟩ := executed
  obtain ⟨T, updated, rfl⟩ := onOrganisations_eq executed
  rcases Table.update_cases updated with ⟨rfl, failed⟩ | ⟨o, p, seen, changed, -, rfl, rfl⟩
  · rcases failed with rfl | ⟨rfl, -⟩ <;> cases same
  · cases changed
    cases same
    exact ⟨rfl, by simp, { o with deletedAt := some now }, by simp, rfl⟩

theorem softDelete_wp (actor : Uuid) (auditActor : Option Uuid) (start : HoldsNoMembership t db) :
    wp (machine τ text) (ownerContract text τ) t (softDelete organisation actor auditActor)
      (fun _ _ => True) db := by
  refine Terms.wp_checked (wp_balanced ?_ start)
  have none : ∀ {α : Type} {body : Tx α}, body.Only (·.isQuiet = true) →
      Triple (machine τ text) (ownerContract text τ) t (HoldsNoMembership t) body
        fun _ => HoldsNoMembership t := triple_quiet holdsNoMembership_stable
  have quiet : ∀ s : Statement, s.isQuiet = true → s.isQuiet = true := fun _ h => h
  refine .bind (none (getOrganisation_only quiet _)) fun _ => ?_
  refine .bind (none (getUserById_only quiet _)) fun _ => ?_
  refine .bind (none only_raiseIf) fun _ => .bind (none only_raiseIf) fun _ => ?_
  refine .bind (none (sql_only quiet rfl)) fun _ => .bind (none only_raiseIf) fun _ => ?_
  refine .bind (none (sql_only quiet rfl)) fun _ => .bind (none only_raiseIf) fun _ => ?_
  refine .bind (none (sql_only quiet rfl)) fun _ => ?_
  have deactivates : Triple (machine τ text) (ownerContract text τ) t (HoldsNoMembership t)
      (deactivateOrganisationMemberships organisation) fun _ => HoldsOnly t organisation := by
    refine .bind (none (sql_only quiet rfl)) fun ids => ?_
    refine (Triple.forEach fun id _ => ?_).weaken (fun _ h => h.holdsOnly) fun _ _ h => h
    exact triple_sql holdsOnly_stable nofun fun db a db' h lawful _ executed =>
      deactivateIfActive_holdsOnly h lawful executed
  let Done (db : Db τ) : Prop := HoldsOnly t organisation db ∧ DeletionPrepared t organisation db
  have done_stable : (ownerContract text τ).Stable t Done := fun db db' h moved lawful =>
    ⟨holdsOnly_stable db db' h.1 moved lawful, h.2.stays moved.stays⟩
  refine .bind deactivates fun _ => ?_
  refine .bind (triple_quiet holdsOnly_stable (sql_only quiet rfl)) fun now => ?_
  refine .bind (B := fun _ => Done) (triple_sql holdsOnly_stable nofun ?_) fun _ => ?_
  · intro db a db' h _ _ executed
    obtain ⟨same, prepared⟩ := softDeleteOrganisation_prepared executed
    exact ⟨by simpa [HoldsOnly, same] using h, prepared⟩
  · exact (triple_quiet done_stable (sql_only quiet rfl)).weaken (fun _ h => h)
      fun _ _ h => balanced_of_deletion h.1 h.2

end SaasTemplate.Tenancy
