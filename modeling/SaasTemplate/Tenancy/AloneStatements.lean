import SaasTemplate.Isolation.Alone
import SaasTemplate.Tenancy.RowLaws
import SaasTemplate.Tenancy.ServiceStatements

/-! # Tenants: operations that run alone

What the statements and the checks of an operation do to memberships and invites while
nobody else moves. Rows are read as a transaction sees them: between two operations, that
is what is committed.
-/

set_option linter.unusedSectionVars false

namespace SaasTemplate.Tenancy

open SaasTemplate.Isolation SaasTemplate.Isolation.Prog SaasTemplate.Isolation.Machine

/-- A tenant database that one client uses. -/
abbrev Rows : Type := Db Unit

def Db.membership (db : Rows) : Uuid → Option Membership := db.memberships.view ()

def Db.invite (db : Rows) : Uuid → Option Invite := db.invites.view ()

/-- The same memberships and invites. -/
structure SameRows (db db' : Rows) : Prop where
  memberships : db'.membership = db.membership
  invites : db'.invite = db.invite

theorem SameRows.refl (db : Rows) : SameRows db db := ⟨rfl, rfl⟩

theorem SameRows.trans {a b c : Rows} (first : SameRows a b) (second : SameRows b c) :
    SameRows a c :=
  ⟨second.memberships.trans first.memberships, second.invites.trans first.invites⟩

/-- If the program alone ends well, then `Q` holds of its result and the rows it leaves. -/
abbrev Ends {α : Type} (text : TextOps) (p : Tx α) (Q : α → Rows → Prop) (db : Rows) : Prop :=
  (machine Unit text).Ensures () p Q db

/-! ## Statements -/

theorem view_put_eq {ρ : Type} (T : Table Uuid Unit ρ) (id : Uuid) (r : Option ρ) :
    (T.put () id r).view () = Function.update (T.view ()) id r := by
  funext k
  by_cases same : k = id
  · subst same
    simp
  · simp [Table.view_put_other same, Function.update_of_ne same]

section Statements

variable {text : TextOps} {s : Statement} {db db' : Rows}

/-- The statements that write no membership and no invite. -/
def Statement.leavesRows : Statement → Bool
  | .insertMembership _ _ | .updateRole _ _ _ | .deactivate _ _ | .deactivateIfActive _ _
  | .insertInvite _ _ | .acceptPendingByTokenHash _ _ | .expirePendingByTokenHash _ _
  | .revokePending _ _ _ _ | .rotatePendingToken _ _ _ _ _ | .expirePendingById _ _ _
  | .scrubInvite _ | .rollback => false
  | _ => true

theorem Statement.leavesRows_of_isQuiet (h : s.isQuiet = true) : s.leavesRows = true := by
  cases s <;> first | rfl | cases h

theorem exec_leavesRows {r : Except AppError (Answer s)} (leaves : s.leavesRows = true)
    (h : exec text () s db = some (r, db')) : SameRows db db' := by
  cases s with
  | insertUser id user =>
      obtain ⟨T, -, rfl⟩ := onUsers_eq h
      exact ⟨rfl, rfl⟩
  | updateProfile id loaded identity =>
      obtain ⟨r', h⟩ := refreshed_eq h
      obtain ⟨T, -, rfl⟩ := onUsers_eq h
      exact ⟨rfl, rfl⟩
  | markOnboarded id =>
      obtain ⟨r', h⟩ := flushed_eq h
      obtain ⟨T, -, rfl⟩ := onUsers_eq h
      exact ⟨rfl, rfl⟩
  | insertOrganisation id organisation =>
      obtain ⟨T, -, rfl⟩ := onOrganisations_eq h
      exact ⟨rfl, rfl⟩
  | updateDetails | softDeleteOrganisation =>
      obtain ⟨r', h⟩ := flushed_eq h
      obtain ⟨T, -, rfl⟩ := onOrganisations_eq h
      exact ⟨rfl, rfl⟩
  | lockActiveMembership id organisation =>
      obtain ⟨⟨out, T⟩, locked, is⟩ := Option.map_eq_some_iff.mp h
      cases is
      rcases Table.lockRow_cases locked with ⟨rfl, -, -⟩ | ⟨row, seen, -, -, rfl, -⟩
      · exact ⟨rfl, rfl⟩
      · refine ⟨?_, rfl⟩
        show (db.memberships.put () id (some row)).view () = db.memberships.view ()
        rw [view_put_eq, ← seen, Function.update_eq_self]
  | commit =>
      cases h
      exact ⟨funext fun k => Table.view_commit () _ k, funext fun k => Table.view_commit () _ k⟩
  | insertMembership | updateRole | deactivate | deactivateIfActive | insertInvite
  | acceptPendingByTokenHash | expirePendingByTokenHash | revokePending | rotatePendingToken
  | expirePendingById | scrubInvite | rollback => cases leaves
  | _ =>
      cases h
      exact ⟨rfl, rfl⟩

/-- A program of statements that leave the rows alone. -/
theorem ends_leavesRows {α : Type} {p : Tx α} (only : p.Only fun s => s.leavesRows = true) :
    Ends text p (fun _ db' => SameRows db db') db :=
  ensures_only only (fun _ _ _ _ leaves held executed =>
    held.trans (exec_leavesRows leaves executed)) (.refl db)

theorem ends_stmt {s : Statement} {Q : Answer s → Rows → Prop}
    (h : ∀ a db', exec text () s db = some (.ok a, db') → Q a db') : Ends text (sql s) Q db :=
  ensures_stmt h

theorem ends_sql {s : Statement} (leaves : s.leavesRows = true) :
    Ends text (sql s) (fun _ db' => SameRows db db') db :=
  ends_leavesRows (only_stmt.mpr leaves)

theorem ends_onIntegrityError {α : Type} {body : Tx α} {e : AppError} {Q : α → Rows → Prop}
    (h : Ends text body Q db) : Ends text (onIntegrityError body (raise e)) Q db := by
  refine ensures_handle h fun e' => ?_
  split
  · exact ⟨e, rfl⟩
  · exact ⟨e', rfl⟩

theorem updateMembership_rows {id : Uuid} {change : Membership → Membership} {u : Unit}
    (h : updateMembership () id change db = some (.ok u, db')) :
    ∃ m, db.membership id = some m ∧
      db'.membership = Function.update db.membership id (some (change m)) ∧
      db'.invite = db.invite := by
  obtain ⟨⟨r, db''⟩, updates, is⟩ := Option.map_eq_some_iff.mp h
  obtain ⟨T, updated, rfl⟩ := onMemberships_eq updates
  rcases Table.update_cases updated with ⟨rfl, rfl | ⟨rfl, -⟩⟩ | ⟨m, n, seen, changed, ok, rfl, rfl⟩
  · cases is
  · cases is
  · cases is
    cases changed
    exact ⟨m, seen, view_put_eq _ _ _, rfl⟩

theorem updateInvite_rows {id : Uuid} {p : Invite → Bool} {change : Invite → Invite}
    {answer : Option Invite} (h : updateInvite text () id p change db = some (.ok answer, db')) :
    (answer = none ∧ db' = db) ∨ ∃ i, db.invite id = some i ∧ p i = true ∧
      answer = some { change i with updatedAt := db.clock } ∧ db'.membership = db.membership ∧
      db'.invite = Function.update db.invite id (some { change i with updatedAt := db.clock }) := by
  obtain ⟨T, updated, rfl⟩ := onInvites_eq h
  rcases Table.update_cases updated with ⟨rfl, is | ⟨is, -⟩⟩ | ⟨i, j, seen, changed, ok, rfl, is⟩
  · cases is
  · cases is
    exact .inl ⟨rfl, rfl⟩
  · cases is
    unfold updateIf at changed
    split at changed
    · rename_i matched
      cases changed
      exact .inr ⟨i, seen, matched, rfl, rfl, view_put_eq _ _ _⟩
    · cases changed

theorem insertMembership_rows {id : Uuid} {m : Membership} {u : Unit}
    (h : exec text () (.insertMembership id m) db = some (.ok u, db')) :
    db.membership id = none ∧ db'.membership = Function.update db.membership id (some m) ∧
      db'.invite = db.invite := by
  simp only [exec] at h
  split at h
  · obtain ⟨T, inserted, rfl⟩ := onMemberships_eq h
    rcases Table.insert_cases inserted with ⟨-, is⟩ | ⟨fresh, -, rfl, -⟩
    · cases is
    · exact ⟨fresh, view_put_eq _ _ _, rfl⟩
  · cases h

theorem insertInvite_rows {id : Uuid} {i : Invite} {u : Unit}
    (h : exec text () (.insertInvite id i) db = some (.ok u, db')) :
    db.invite id = none ∧ db'.invite = Function.update db.invite id (some i) ∧
      db'.membership = db.membership := by
  simp only [exec] at h
  split at h
  · obtain ⟨T, inserted, rfl⟩ := onInvites_eq h
    rcases Table.insert_cases inserted with ⟨-, is⟩ | ⟨fresh, -, rfl, -⟩
    · cases is
    · exact ⟨fresh, view_put_eq _ _ _, rfl⟩
  · cases h

/-! ## Checks -/

/-- `m` is the active membership of a user in an organisation. -/
def MemberAs (db : Rows) (organisation user : Uuid) (m : Membership) : Prop :=
  ∃ id, db.membership id = some m ∧ m.userId = user ∧ m.organisationId = organisation ∧
    m.isActive = true

theorem membershipIn_rows {user organisation : Uuid} {found : Option (Uuid × Membership)}
    (h : exec text () (.membershipIn user organisation) db = some (.ok found, db'))
    {row : Uuid × Membership} (is : found = some row) :
    MemberAs db organisation user row.2 ∧ db' = db := by
  obtain ⟨rfl, rfl⟩ := read_ok h
  obtain ⟨id, m⟩ := row
  obtain ⟨seen, holds⟩ := Table.selectOne_spec is
  simp only [Bool.and_eq_true, beq_iff_eq] at holds
  exact ⟨⟨id, seen, holds.1.1, holds.1.2, holds.2⟩, rfl⟩

theorem ends_getUserById (id : Uuid) : Ends text (getUserById id) (fun _ db' => db' = db) db :=
  (ends_stmt fun _ _ h => exec_quiet rfl h).bind fun _ _ is => ensures_orRaise fun _ _ => is

theorem ends_getOrganisation (id : Uuid) :
    Ends text (getOrganisation id) (fun _ db' => db' = db) db :=
  (ends_stmt fun _ _ h => exec_quiet rfl h).bind fun _ _ is => ensures_orRaise fun _ _ => is

theorem ends_getActorMembership (organisation actor : Uuid) :
    Ends text (getActorMembership organisation actor)
      (fun m db' => db' = db ∧ MemberAs db organisation actor m) db := by
  refine (ends_getUserById actor).bind fun user _ is => ?_
  subst is
  refine ensures_bind (ensures_raiseIf fun _ => ?_)
  refine (ends_getOrganisation organisation).bind fun org _ is => ?_
  subst is
  refine ensures_bind (ensures_raiseIf fun _ => ?_)
  refine ensures_bind (ends_stmt fun found _ h => ?_)
  refine ensures_bind (ensures_orRaise fun row is => ensures_pure ?_)
  obtain ⟨member, rfl⟩ := membershipIn_rows h is
  exact ⟨rfl, member⟩

theorem ends_getMembershipForOrganisation (id organisation : Uuid) :
    Ends text (getMembershipForOrganisation id organisation) (fun m db' => db' = db ∧
      db.membership id = some m ∧ m.organisationId = organisation ∧ m.isActive = true) db := by
  refine ensures_bind (ends_stmt fun found _ h => ensures_orRaise fun m is => ?_)
  obtain ⟨rfl, rfl⟩ := read_ok h
  obtain ⟨seen, holds⟩ := Option.filter_eq_some_iff.mp is
  simp only [Bool.and_eq_true, beq_iff_eq] at holds
  exact ⟨rfl, seen, holds⟩

theorem ends_actorAndTarget (call : MembershipCall) :
    Ends text (actorAndTarget call) (fun pair db' => db' = db ∧
      MemberAs db call.organisationId call.actorUserId pair.1 ∧
      db.membership call.membershipId = some pair.2 ∧
      pair.2.organisationId = call.organisationId ∧ pair.2.isActive = true) db := by
  refine (ends_getUserById _).bind fun user _ is => ?_
  subst is
  refine ensures_bind (ensures_raiseIf fun _ => ?_)
  refine (ends_getOrganisation _).bind fun org _ is => ?_
  subst is
  refine ensures_bind (ensures_raiseIf fun _ => ?_)
  refine ensures_bind (ends_stmt fun found _ h => ?_)
  refine ensures_bind (ensures_orRaise fun row is => ?_)
  obtain ⟨member, rfl⟩ := membershipIn_rows h is
  refine (ends_getMembershipForOrganisation _ _).bind fun target _ ⟨is, rest⟩ => ?_
  subst is
  exact ensures_pure ⟨rfl, member, rest⟩

theorem ends_ensureAuditActorMatches {actor : Uuid} {audit : Option Uuid} :
    Ends text (ensureAuditActorMatches actor audit) (fun _ db' => db' = db) db :=
  ensures_raiseIf fun _ => rfl

/-- A transaction leaves the rows that its body leaves. -/
theorem ends_inTransaction {α : Type} {body : Tx α} {Q : α → Rows → Prop}
    (h : Ends text body (fun a db' => ∀ db'', SameRows db' db'' → Q a db'') db) :
    Ends text (inTransaction body) Q db := by
  refine ensures_transaction (h.mono fun a db' rows u db'' committed => rows db'' ?_)
  have committed : exec text () .commit db' = some (.ok u, db'') := committed
  exact exec_leavesRows rfl committed

end Statements

end SaasTemplate.Tenancy
