import SaasTemplate.Tenancy.TenantContract

/-! # Exactly one active owner

Once an organisation has an active owner it keeps exactly one, until it is deleted.
At most one is the unique index. At least one is a matter of what each commit takes
away: a transaction may only end an active owner if it has prepared another, or the
deletion of the organisation. Operations that update a membership by primary key
without its lock keep this as long as the row they hit is not the owner's by then.
-/

set_option linter.unusedSectionVars false

namespace SaasTemplate.Tenancy

open SaasTemplate.Isolation SaasTemplate.Isolation.Prog

variable {τ : Type} [DecidableEq τ]

def HasActiveOwner (db : Db τ) (organisation : Uuid) : Prop :=
  ∃ k m, db.memberships.committed k = some m ∧ m.isActiveOwner = true ∧
    m.organisationId = organisation

def IsDeleted (db : Db τ) (organisation : Uuid) : Prop :=
  ∃ o, db.organisations.committed organisation = some o ∧ o.isDeleted = true

def ExactlyOneActiveOwner (db : Db τ) (organisation : Uuid) : Prop :=
  ∃! k, ∃ m, db.memberships.committed k = some m ∧ m.isActiveOwner = true ∧
    m.organisationId = organisation

/-- An organisation that has its owner, or no longer needs one. -/
def Settled (db : Db τ) (organisation : Uuid) : Prop :=
  HasActiveOwner db organisation ∨ IsDeleted db organisation

theorem entries_of_isActiveOwner {m : Membership} (h : m.isActiveOwner = true) :
    MembershipKey.oneActiveOwner m.organisationId ∈ m.entries := by
  simp [Membership.entries, h]

theorem clash_of_activeOwners {m n : Membership} (left : m.isActiveOwner = true)
    (right : n.isActiveOwner = true) (same : m.organisationId = n.organisationId) :
    Table.Clash Membership.entries (some m) (some n) :=
  ⟨m, n, _, rfl, rfl, entries_of_isActiveOwner left, same ▸ entries_of_isActiveOwner right⟩

/-- The unique index leaves at most one active owner. -/
theorem HasActiveOwner.exactlyOne {text : TextOps} {db : Db τ} (lawful : db.Lawful text)
    {organisation : Uuid} (h : HasActiveOwner db organisation) :
    ExactlyOneActiveOwner db organisation := by
  obtain ⟨k, m, here, owner, inOrg⟩ := h
  refine ⟨k, ⟨m, here, owner, inOrg⟩, ?_⟩
  rintro j ⟨n, there, owner', inOrg'⟩
  by_contra differ
  refine lawful.memberships.unique.committed differ ?_
  rw [here, there]
  exact clash_of_activeOwners owner' owner (inOrg'.trans inOrg.symm)

/-! ## What a transaction owes before it commits -/

/-- The transaction holds no membership that is an active owner in the committed state. -/
def Harmless (t : τ) (db : Db τ) : Prop :=
  ∀ k m, db.memberships.holder k = some t → db.memberships.committed k = some m →
    m.isActiveOwner = false

/-- For each active owner the transaction holds, it has prepared an active owner of the
    same organisation, or the deletion of that organisation. -/
def Balanced (t : τ) (db : Db τ) : Prop :=
  ∀ k m, db.memberships.holder k = some t → db.memberships.committed k = some m →
    m.isActiveOwner = true →
    (∃ j n, db.memberships.holder j = some t ∧ db.memberships.pending j = some n ∧
      n.isActiveOwner = true ∧ n.organisationId = m.organisationId) ∨
    ∃ o, db.organisations.holder m.organisationId = some t ∧
      db.organisations.pending m.organisationId = some o ∧ o.isDeleted = true

def HoldsNoMembership (t : τ) (db : Db τ) : Prop := ∀ k, db.memberships.holder k ≠ some t

theorem HoldsNoMembership.harmless {t : τ} {db : Db τ} (h : HoldsNoMembership t db) :
    Harmless t db := fun k _ held => absurd held (h k)

theorem Harmless.balanced {t : τ} {db : Db τ} (h : Harmless t db) : Balanced t db := by
  intro k m held here owner
  simp [h k m held here] at owner

theorem settled_of_committed {db db' : Db τ} {organisation : Uuid}
    (memberships : ∀ k, db'.memberships.committed k = db.memberships.committed k)
    (organisations : ∀ k, db'.organisations.committed k = db.organisations.committed k)
    (h : Settled db organisation) : Settled db' organisation := by
  simpa only [Settled, HasActiveOwner, IsDeleted, memberships, organisations] using h

/-- A balanced transaction may commit. -/
theorem Balanced.commit_settled {text : TextOps} {t : τ} {db : Db τ} (h : Balanced t db)
    (lawful : db.Lawful text) {organisation : Uuid} (settled : Settled db organisation) :
    Settled (db.commit t) organisation := by
  have owner_of_pending : ∀ {j n}, db.memberships.holder j = some t →
      db.memberships.pending j = some n → n.isActiveOwner = true → n.organisationId = organisation →
      HasActiveOwner (db.commit t) organisation := by
    intro j n held here owner inOrg
    exact ⟨j, n, by simpa [Db.commit, Table.view_of_held held] using here, owner, inOrg⟩
  rcases settled with ⟨k, m, here, owner, inOrg⟩ | ⟨o, here, deleted⟩
  · by_cases held : db.memberships.holder k = some t
    · rcases h k m held here owner with ⟨j, n, held', here', owner', same⟩ | ⟨o, heldO, here', gone⟩
      · exact .inl (owner_of_pending held' here' owner' (same.trans inOrg))
      · rw [inOrg] at heldO here'
        exact .inr ⟨o, by simpa [Db.commit, Table.view_of_held heldO] using here', gone⟩
    · exact .inl ⟨k, m, by simpa [Db.commit, Table.view_of_not_held held] using here, owner, inOrg⟩
  · obtain ⟨p, seen, kept⟩ := lawful.organisations.follows.view t organisation o here
    exact .inr ⟨p, by simpa [Db.commit] using seen, kept deleted⟩

/-! ## The contract -/

/-- Does the statement update by primary key, for an operation that took no lock on the
    row before, a row that is an active owner's by now? -/
def updatesOwnerRow (t : τ) (s : Statement) (db : Db τ) : Bool :=
  match s with
  | .updateRole .changeMembershipRole id _ | .deactivate .removeMembership id
  | .deactivate .deactivateMembership id => (db.memberships.view t id).any (·.isActiveOwner)
  | _ => false

/-- An update by primary key hits a row that is not an active owner's by then. -/
def OwnerRowUntouched (t : τ) (s : Statement) (db : Db τ) : Prop := updatesOwnerRow t s db = false

/-- No settled organisation loses its owner. -/
def KeepsSettled (_ : τ) (db db' : Db τ) : Prop := ∀ o, Settled db o → Settled db' o

instance : CommitPromise (KeepsSettled (τ := τ)) where
  same _ _ _ same _ := settled_of_committed same.memberships same.organisations

/-- The contract of the tenant operations. -/
abbrev ownerContract (text : TextOps) (τ : Type) [DecidableEq τ] : Contract τ Statement (Db τ) :=
  tenantContract text KeepsSettled OwnerRowUntouched

/-! ## Steps -/

section Steps

variable {text : TextOps} {t : τ} {s : Statement} {db db' : Db τ}

theorem holdsNoMembership_stable :
    (ownerContract text τ).Stable t (HoldsNoMembership t) :=
  fun _ _ held moved _ k => moved.stays.memberships.keeps.not_held (held k)

theorem harmless_stable : (ownerContract text τ).Stable t (Harmless t) := by
  intro db db' h moved _ k m held here
  obtain ⟨before, same⟩ := moved.stays.memberships.keeps.cell_of_held held
  exact h k m before (by rwa [Table.committed_of_cell same] at here)

theorem balanced_stable : (ownerContract text τ).Stable t (Balanced t) := by
  intro db db' h moved _ k m held here owner
  obtain ⟨before, same⟩ := moved.stays.memberships.keeps.cell_of_held held
  rw [Table.committed_of_cell same] at here
  rcases h k m before here owner with ⟨j, n, held', here', rest⟩ | ⟨o, held', here', gone⟩
  · have cell := moved.stays.memberships.keeps.cell held'
    exact .inl ⟨j, n, moved.stays.memberships.keeps.held_iff.mpr held',
      (Table.pending_of_cell cell).trans here', rest⟩
  · have cell := moved.stays.organisations.keeps.cell held'
    exact .inr ⟨o, moved.stays.organisations.keeps.held_iff.mpr held',
      (Table.pending_of_cell cell).trans here', gone⟩

/-- Writing a row that is no active owner's keeps a transaction harmless. -/
theorem Harmless.put (h : Harmless t db) {k : Uuid} {r : Option Membership}
    (spared : ∀ m, db.memberships.view t k = some m → m.isActiveOwner = false) :
    Harmless t { db with memberships := db.memberships.put t k r } := by
  intro j m held here
  rw [Table.committed_put] at here
  by_cases same : j = k
  · subst same
    by_cases before : db.memberships.holder j = some t
    · exact h j m before here
    · exact spared m ((Table.view_of_not_held before).trans here)
  · exact h j m (by simpa [Table.holder_put_other same] using held) here

/-- The statements of the operations that neither lock memberships nor re-count after
    writing one. -/
def Statement.sparesOwners : Statement → Bool
  | .updateRole writer _ _ => writer = .changeMembershipRole
  | .deactivate writer _ => writer = .removeMembership || writer = .deactivateMembership
  | .lockActiveMembership _ _ | .deactivateIfActive _ _ | .commit => false
  | _ => true

theorem Harmless.step (h : Harmless t db) (spares : s.sparesOwners = true)
    (allowed : OwnerRowUntouched t s db) (lawful : db.Lawful text)
    {r : Except AppError (Answer s)} (executed : exec text t s db = some (r, db')) :
    Harmless t db' := by
  cases exec_case lawful executed with
  | unchanged | user | organisation | invite => exact h
  | commit is => subst is; cases spares
  | rollback =>
      intro k m held here
      have := (Table.holder_rollback_eq_some (T := db.memberships) held)
      exact absurd this.1 this.2
  | @membership k r target fresh =>
      refine h.put fun m seen => ?_
      cases s with
      | insertMembership id row => simp [fresh id row rfl] at seen
      | updateRole writer id role =>
          cases target
          cases writer <;> first
            | simpa [OwnerRowUntouched, updatesOwnerRow, seen] using allowed
            | cases spares
      | deactivate writer id =>
          cases target
          cases writer <;> first
            | simpa [OwnerRowUntouched, updatesOwnerRow, seen] using allowed
            | cases spares
      | lockActiveMembership | deactivateIfActive => cases spares
      | _ => cases target

theorem triple_spares {α : Type} {body : Tx α} (only : body.Only (·.sparesOwners = true)) :
    Triple (machine τ text) (ownerContract text τ) t (Harmless t) body fun _ => Harmless t :=
  triple_only harmless_stable nofun
    (fun _ _ _ _ spares h lawful allowed executed => h.step spares allowed lawful executed) only

/-- A transaction whose body ends balanced keeps the contract. -/
theorem wp_balanced {α : Type} {body : Tx α}
    (run : Triple (machine τ text) (ownerContract text τ) t (HoldsNoMembership t) body
      fun _ => Balanced t) (start : HoldsNoMembership t db) :
    wp (machine τ text) (ownerContract text τ) t (inTransaction body) (fun _ _ => True) db :=
  wp_inTransaction run (fun _ => balanced_stable)
    (fun _ _ ready lawful => ⟨trivial, fun _ => ready.commit_settled lawful⟩) start

theorem quiet_spares (s : Statement) (h : s.isQuiet = true) : s.sparesOwners = true := by
  cases s <;> first | rfl | cases h

theorem writesUser_spares (s : Statement) (h : s.writesUser = true) : s.sparesOwners = true := by
  cases s <;> first | rfl | cases h

/-- A body that spares the owners makes a transaction that keeps the contract. -/
theorem wp_sparing {α : Type} {body : Tx α} (only : body.Only (·.sparesOwners = true))
    (start : HoldsNoMembership t db) :
    wp (machine τ text) (ownerContract text τ) t (inTransaction body) (fun _ _ => True) db :=
  wp_balanced ((triple_spares only).weaken (fun _ => HoldsNoMembership.harmless)
    fun _ _ => Harmless.balanced) start

end Steps

end SaasTemplate.Tenancy
