import SaasTemplate.Platform.EffectiveAdmins

/-! # An effective admin in every run

Each request keeps the contract: its actor was an effective admin when it was resolved,
and it writes neither the actor's staff record nor the actor's user. The schedule at the
end shows two admins who suspend each other.
-/

set_option linter.unusedSectionVars false

namespace SaasTemplate.Platform

open SaasTemplate.Isolation SaasTemplate.Isolation.Prog

variable {τ : Type} [DecidableEq τ] {t : τ} {s : Statement} {db : Db τ} {α : Type}

/-- An actor as a request with an admin's permission resolves it. -/
structure PlatformActor.IsAdmin (actor : PlatformActor) : Prop where
  own : actor.staff.userId = actor.userId
  staff : actor.staff.isActiveAdmin = true
  user : actor.user.status = .active

theorem admin_stable : (platformContract τ).Stable t HasSecureAdmin :=
  fun _ _ secure moved _ => moved.stays.secure secure

/-- One statement of a transaction. -/
theorem triple_sql {A : Db τ → Prop} {B : Answer s → Db τ → Prop}
    (stable : (platformContract τ).Stable t A) (open_ : s ≠ .commit) (spares : s.SparesActor)
    (administered : s.writes = true → ∀ db, A db → HasSecureAdmin db)
    (effect : ∀ db a db', A db → Steady db → Needs t s db → exec t s db = some (.ok a, db') →
      B a db') :
    Triple (machine τ) (platformContract τ) t A (sql s) B :=
  Terms.triple_stmt stable open_
    (fun db held _ => ⟨spares, fun writes => administered writes db held⟩)
    fun db a db' held steady stays executed => effect db a db' held steady
      ⟨stays, spares, fun writes => administered writes db held⟩ executed

/-- A statement that spares the actor leaves an admin. -/
theorem triple_spares (open_ : s ≠ .commit) (spares : s.SparesActor) :
    Triple (machine τ) (platformContract τ) t HasSecureAdmin (sql s) fun _ => HasSecureAdmin :=
  triple_sql admin_stable open_ spares (fun _ _ held => held)
    fun _ _ _ held _ needs executed => (exec_case executed).secure needs held

/-! ## The actor -/

/-- What the user that a request found says about the database. -/
def UserFound (found : Uuid × User) (db : Db τ) : Prop :=
  HasSecureAdmin db ∨ Unadministered db ∧ db.users.committed found.1 = some found.2

theorem userFound_stable {found : Uuid × User} :
    (platformContract τ).Stable t (UserFound found) := by
  rintro db db' (secure | ⟨none, here⟩) moved -
  · exact .inl (moved.stays.secure secure)
  · obtain ⟨users, staff⟩ := moved.stays.nothing none
    exact .inr ⟨none.of_cells users staff, by simpa [Table.committed, users] using here⟩

theorem findUser_triple (externalAuthId : String) :
    Triple (machine τ) (platformContract τ) t (fun _ => True)
      (sql (.userByExternalAuthId externalAuthId)) fun found db =>
        ∀ row, found = some row → UserFound row db := by
  refine triple_sql (fun _ _ _ _ _ => trivial) nofun trivial nofun ?_
  intro db found db' _ steady _ executed row is
  cases executed
  obtain ⟨seen, -⟩ := Table.selectOne_spec is
  rcases steady with secure | none
  · exact .inl secure
  · rw [Table.view_of_not_held (by simp [none.users])] at seen
    exact .inr ⟨none, seen⟩

theorem findStaff_triple {user : Uuid × User} (active : user.2.status = .active) :
    Triple (machine τ) (platformContract τ) t (UserFound user) (sql (.staffByUserId user.1))
      fun found db => ∀ row, found = some row →
        row.2.userId = user.1 ∧ (row.2.isActiveAdmin = true → HasSecureAdmin db) := by
  refine triple_sql userFound_stable nofun trivial nofun ?_
  intro db found db' held _ _ executed row is
  cases executed
  obtain ⟨seen, mine⟩ := Table.selectOne_spec is
  have owner : row.2.userId = user.1 := by simpa using mine
  refine ⟨owner, fun admin => ?_⟩
  rcases held with secure | ⟨none, here⟩
  · exact secure
  · rw [Table.view_of_not_held (by simp [none.staff])] at seen
    exact absurd ⟨row.2, user.2, seen, admin, owner ▸ here, by simp [User.isActive, active]⟩
      (none.nobody row.1)

/-- An actor with a permission that only admins have is an admin. -/
theorem resolvePlatformActor_triple {permission : PlatformPermission}
    (adminsOnly : ∀ role : PlatformStaffRole, role.permits permission = true →
      role = .platformAdmin) (externalAuthId : String) :
    Triple (machine τ) (platformContract τ) t (fun _ => True)
      (resolvePlatformActor externalAuthId permission)
      fun actor db => HasSecureAdmin db ∧ actor.IsAdmin := by
  have resolved : Triple (machine τ) (platformContract τ) t (fun _ => True)
      (resolveActivePlatformActor externalAuthId) fun actor db =>
        (actor.staff.isActiveAdmin = true → HasSecureAdmin db) ∧
          actor.staff.userId = actor.userId ∧ actor.staff.status = .active ∧
          actor.user.status = .active := by
    refine (findUser_triple externalAuthId).bind fun found => Triple.orRaise.bind fun user => ?_
    refine Triple.raiseIf.bind fun _ => ?_
    refine Triple.assume fun active => ?_
    have userActive : user.2.status = .active := by simpa using active
    refine Triple.bind (((findStaff_triple userActive).weaken ?_ fun _ _ held => held))
      fun record => Triple.orRaise.bind fun staff => Triple.raiseIf.bind fun _ => ?_
    · rintro db ⟨held, is⟩
      exact held user is
    · refine .pure fun db held => ?_
      obtain ⟨⟨read, is⟩, works⟩ := held
      obtain ⟨mine, admin⟩ := read staff is
      exact ⟨admin, mine, by simpa using works, userActive⟩
  refine resolved.bind fun actor => Triple.raiseIf.bind fun _ => .pure fun db held => ?_
  obtain ⟨⟨secure, mine, works, active⟩, permitted⟩ := held
  have admin : actor.staff.isActiveAdmin = true := by
    have role := adminsOnly actor.staff.role (by simpa using permitted)
    simp [PlatformStaff.isActiveAdmin, role, works]
  exact ⟨secure admin, mine, admin, active⟩

/-! ## The operations -/

theorem getStaff_triple (actor : PlatformActor) (staffId : Uuid) :
    Triple (machine τ) (platformContract τ) t HasSecureAdmin (getStaff actor staffId)
      fun staff db => HasSecureAdmin db ∧ (staffId = actor.staffId → staff = actor.staff) := by
  refine (triple_spares (by nofun) (by trivial)).bind fun found => Triple.orRaise.bind fun staff => ?_
  refine .pure fun db held => ⟨held.1, fun own => ?_⟩
  simp [own]

theorem getUser_triple (actor : PlatformActor) (userId : Uuid) :
    Triple (machine τ) (platformContract τ) t HasSecureAdmin (getUser actor userId)
      fun user db => HasSecureAdmin db ∧ (userId = actor.userId → user = actor.user) := by
  refine (triple_spares (by nofun) (by trivial)).bind fun found => Triple.orRaise.bind fun user => ?_
  refine .pure fun db held => ⟨held.1, fun own => ?_⟩
  simp [own]

theorem ensureAnotherActiveAdmin_triple (takesAdmin : Bool) (staffId : Uuid)
    (staff : PlatformStaff) (detail : String) :
    Triple (machine τ) (platformContract τ) t HasSecureAdmin
      (ensureAnotherActiveAdmin takesAdmin staffId staff detail) fun _ => HasSecureAdmin := by
  unfold ensureAnotherActiveAdmin
  split
  · refine Triple.bind (B := fun _ => HasSecureAdmin) ?_ fun admins =>
      Triple.raiseIf.bind fun _ => .pure fun _ held => held.1
    refine (triple_spares (by nofun) (by trivial)).bind fun ids => ?_
    refine Triple.collect (A := fun _ => HasSecureAdmin) (fun id _ _ => ?_) []
    exact (triple_spares (by nofun) (by trivial)).bind fun _ => .pure fun _ held => held
  · exact .pure fun _ held => held

theorem writeStaff_triple {actor : PlatformActor} {staffId : Uuid}
    {loaded assigned : PlatformStaff} (other : staffId ≠ actor.staffId)
    (owner : assigned.userId = loaded.userId) :
    Triple (machine τ) (platformContract τ) t HasSecureAdmin
      (writeStaff actor staffId loaded assigned) fun _ => HasSecureAdmin := by
  have written : Triple (machine τ) (platformContract τ) t HasSecureAdmin
      (sql (.flushStaff actor staffId loaded assigned)) fun _ => HasSecureAdmin :=
    triple_spares nofun ⟨other, owner⟩
  refine written.bind fun _ => (triple_spares (by nofun) (by trivial)).bind fun staff => ?_
  exact (triple_spares (by nofun) (by trivial)).bind fun _ => .pure fun _ held => held

theorem writeUser_triple {actor : PlatformActor} {userId : Uuid} {loaded assigned : User}
    (other : userId ≠ actor.userId) :
    Triple (machine τ) (platformContract τ) t HasSecureAdmin
      (writeUser actor userId loaded assigned) fun _ => HasSecureAdmin := by
  have written : Triple (machine τ) (platformContract τ) t HasSecureAdmin
      (sql (.flushUser actor userId loaded assigned)) fun _ => HasSecureAdmin :=
    triple_spares nofun other
  refine written.bind fun _ => (triple_spares (by nofun) (by trivial)).bind fun user => ?_
  exact (triple_spares (by nofun) (by trivial)).bind fun _ => .pure fun _ held => held

theorem PlatformActor.IsAdmin.role {actor : PlatformActor} (h : actor.IsAdmin) :
    actor.staff.role = .platformAdmin ∧ actor.staff.status = .active := by
  simpa [PlatformStaff.isActiveAdmin] using h.staff

theorem changeRole_triple {actor : PlatformActor} (h : actor.IsAdmin) (staffId : Uuid)
    (role : PlatformStaffRole) :
    Triple (machine τ) (platformContract τ) t HasSecureAdmin (changeRole staffId actor role)
      fun _ => HasSecureAdmin := by
  refine (getStaff_triple actor staffId).bind fun staff => Triple.assume fun own => ?_
  refine Triple.raiseIf.bind fun _ => Triple.assume fun active => ?_
  refine Triple.raiseIf.bind fun _ => Triple.assume fun changed => ?_
  refine Triple.raiseIf.bind fun _ => Triple.assume fun demotesOwn => ?_
  have other : staffId ≠ actor.staffId := by
    intro same
    obtain rfl := own same
    exact demotesOwn ⟨h.own, h.role.1, fun is => changed (h.role.1.trans is.symm)⟩
  exact (ensureAnotherActiveAdmin_triple _ staffId staff _).bind fun staff =>
    writeStaff_triple other rfl

theorem suspendStaff_triple {actor : PlatformActor} (h : actor.IsAdmin) (staffId : Uuid)
    (reason : String) :
    Triple (machine τ) (platformContract τ) t HasSecureAdmin (suspendStaff staffId actor reason)
      fun _ => HasSecureAdmin := by
  refine (getStaff_triple actor staffId).bind fun staff => Triple.assume fun own => ?_
  refine Triple.raiseIf.bind fun _ => Triple.assume fun suspendsOwn => ?_
  have other : staffId ≠ actor.staffId := fun same => suspendsOwn (own same ▸ h.own)
  split
  · exact .pure fun _ held => held
  · refine Triple.raiseIf.bind fun _ => Triple.assume fun _ => ?_
    refine (ensureAnotherActiveAdmin_triple _ staffId staff _).bind fun staff => ?_
    exact (triple_spares (by nofun) (by trivial)).bind fun now => writeStaff_triple other rfl

theorem restoreStaff_triple {actor : PlatformActor} (h : actor.IsAdmin) (staffId : Uuid) :
    Triple (machine τ) (platformContract τ) t HasSecureAdmin (restoreStaff staffId actor)
      fun _ => HasSecureAdmin := by
  refine (getStaff_triple actor staffId).bind fun staff => Triple.assume fun own => ?_
  split
  · exact .pure fun _ held => held
  · rename_i suspended
    have other : staffId ≠ actor.staffId := fun same => suspended (own same ▸ h.role.2)
    exact Triple.raiseIf.bind fun _ => Triple.assume fun _ => writeStaff_triple other rfl

theorem suspendUser_triple (actor : PlatformActor) (userId : Uuid) (reason : String) :
    Triple (machine τ) (platformContract τ) t HasSecureAdmin (suspendUser userId actor reason)
      fun _ => HasSecureAdmin := by
  refine Triple.raiseIf.bind fun _ => Triple.assume fun suspendsOwn => ?_
  refine (getUser_triple actor userId).bind fun user => Triple.assume fun _ => ?_
  split
  · exact .pure fun _ held => held
  · exact (triple_spares (by nofun) (by trivial)).bind fun now =>
      writeUser_triple fun same => suspendsOwn same.symm

theorem restoreUser_triple {actor : PlatformActor} (h : actor.IsAdmin) (userId : Uuid) :
    Triple (machine τ) (platformContract τ) t HasSecureAdmin (restoreUser userId actor)
      fun _ => HasSecureAdmin := by
  refine (getUser_triple actor userId).bind fun user => Triple.assume fun own => ?_
  split
  · exact .pure fun _ held => held
  · rename_i suspended
    exact writeUser_triple fun same => suspended (own same ▸ h.user)

/-- A write request whose work spares an admin's own rows. -/
theorem platformWrite_wp {permission : PlatformPermission} {work : PlatformActor → Tx α}
    (adminsOnly : ∀ role : PlatformStaffRole, role.permits permission = true →
      role = .platformAdmin)
    (run : ∀ actor : PlatformActor, actor.IsAdmin →
      Triple (machine τ) (platformContract τ) t HasSecureAdmin (work actor) fun _ => HasSecureAdmin)
    (caller : String) :
    wp (machine τ) (platformContract τ) t (platformWrite caller permission work)
      (fun _ _ => True) db := by
  have limited : Triple (machine τ) (platformContract τ) t (fun _ => True) (sql .rateLimit)
      fun _ _ => True :=
    triple_sql (fun _ _ _ _ _ => trivial) nofun trivial nofun fun _ _ _ _ _ _ _ => trivial
  refine wp_bind (wp_mono ?_ (limited db trivial))
  rintro (e | _) db' -
  · trivial
  · have whole : Triple (machine τ) (platformContract τ) t (fun _ => True)
        (resolvePlatformActor caller permission >>= work) fun _ => HasSecureAdmin :=
      (resolvePlatformActor_triple adminsOnly caller).bind fun actor => Triple.assume (run actor)
    exact Terms.wp_block whole (fun _ => admin_stable) (fun _ _ _ _ => ⟨trivial, nofun⟩)
      (fun _ _ _ _ _ _ _ => ⟨trivial, fun _ _ => trivial⟩) (fun _ _ _ _ _ _ => trivial) trivial

theorem adminsOnly {permission : PlatformPermission}
    (listed : permission = .platformStaffManage ∨ permission = .usersSuspend ∨
      permission = .usersRestore) (role : PlatformStaffRole)
    (permitted : role.permits permission = true) : role = .platformAdmin := by
  rcases listed with rfl | rfl | rfl <;> cases role <;> first | rfl | cases permitted

theorem PlatformOp.program_wp (op : PlatformOp) :
    wp (machine τ) (platformContract τ) t op.program (fun _ _ => True) db := by
  cases op with
  | changeRole caller staffId role =>
      exact Terms.wp_result
        (platformWrite_wp (adminsOnly (by simp)) (fun _ h => changeRole_triple h staffId role) caller)
  | suspendStaff caller staffId reason =>
      exact Terms.wp_result
        (platformWrite_wp (adminsOnly (by simp)) (fun _ h => suspendStaff_triple h staffId reason) caller)
  | restoreStaff caller staffId =>
      exact Terms.wp_result
        (platformWrite_wp (adminsOnly (by simp)) (fun _ h => restoreStaff_triple h staffId) caller)
  | suspendUser caller userId reason =>
      exact Terms.wp_result
        (platformWrite_wp (adminsOnly (by simp)) (fun actor _ => suspendUser_triple actor userId reason) caller)
  | restoreUser caller userId =>
      exact Terms.wp_result
        (platformWrite_wp (adminsOnly (by simp)) (fun _ h => restoreUser_triple h userId) caller)

/-! ## Runs -/

/-- Requests that are about to run, on a committed database. -/
structure PlatformStart (op : τ → PlatformOp)
    (c : Config τ Statement Answer AppError (Db τ) Unit) : Prop where
  users : ∀ k, c.db.users.holder k = none
  staff : ∀ k, c.db.staff.holder k = none
  operations : ∀ t, c.run t = some (op t).program

theorem settled_of_unlocked {ρ : Type} {p : ρ → Bool} {k : Uuid} {T : Table Uuid τ ρ} {r : ρ}
    (unlocked : T.holder k = none) (here : T.committed k = some r) (meets : p r = true) :
    T.settled p k = true := by
  have free : (T.cell k).lock = none := by simpa [Table.holder, Cell.holder] using unlocked
  simp [Table.settled, here, free, meets]

theorem PlatformStart.steady {op : τ → PlatformOp}
    {c : Config τ Statement Answer AppError (Db τ) Unit} (h : PlatformStart op c) :
    Steady c.db := by
  by_cases administered : ∃ k, IsEffectiveAdmin c.db k
  · obtain ⟨k, s, u, here, admin, there, active⟩ := administered
    refine .inl ⟨k, s.userId, secure_iff.mpr ⟨?_, ?_⟩⟩
    · exact settled_of_unlocked (h.staff k) here (by simp [admin])
    · exact settled_of_unlocked (h.users s.userId) there active
  · exact .inr ⟨h.users, h.staff, fun k effective => administered ⟨k, effective⟩⟩

/-- In every run in which whoever takes an admin away is still an admin then, the platform
    keeps an effective admin. -/
theorem platform_stays_administered {op : τ → PlatformOp}
    {start c d : Config τ Statement Answer AppError (Db τ) Unit} (h : PlatformStart op start)
    (before : (machine τ).Reaches ActorStays start c) (after : (machine τ).Reaches ActorStays c d)
    (administered : ∃ k, IsEffectiveAdmin c.db k) : ∃ k, IsEffectiveAdmin d.db k := by
  have sound := (platformTerms τ).sound
  have safe : Contract.Sound.Safe (machine τ) (platformContract τ) (fun _ _ _ => True) start := by
    refine ⟨h.steady, fun t s k running => ?_⟩
    have program : (op t).program = .call s k :=
      Option.some.inj ((h.operations t).symm.trans running)
    rw [← program]
    exact (op t).program_wp
  have safeC := sound.invariant safe before
  have moved : Moves c.db d.db := by
    refine sound.reaches_rel Moves.refl Moves.trans (fun promised => promised.1) ?_ safeC after
    rintro db _ - ⟨clock, rfl⟩
    exact ⟨id, fun _ => ⟨rfl, rfl⟩⟩
  have secure : HasSecureAdmin c.db := by
    rcases safeC.1 with secure | none
    · exact secure
    · obtain ⟨k, effective⟩ := administered
      exact absurd effective (none.nobody k)
  obtain ⟨k, u, last⟩ := moved.secure secure
  exact ⟨k, effective_of_secure last⟩

/-! ## The two schedules -/

def exampleAdmin (user : Uuid) : PlatformStaff := ⟨user, .platformAdmin, .active, none, none, none⟩

/-- Users 100 and 101 are platform admins, with the staff records 10 and 11. -/
def exampleDb : Db Bool where
  users := .ofRows [(100, ⟨"first", .active, none, none⟩), (101, ⟨"second", .active, none, none⟩)]
  staff := .ofRows [(10, exampleAdmin 100), (11, exampleAdmin 101)]
  clock := 0

/-- Each of the two admins suspends the other one's user. -/
def exampleOp : Bool → PlatformOp
  | false => .suspendUser "first" 101 "left"
  | true => .suspendUser "second" 100 "left"

def exampleStart : Config Bool Statement Answer AppError (Db Bool) Unit :=
  ⟨exampleDb, fun t => some (exampleOp t).program⟩

theorem exampleStart_start : PlatformStart exampleOp exampleStart :=
  ⟨Table.holder_ofRows _, Table.holder_ofRows _, fun _ => rfl⟩

theorem exampleStart_administered : ∃ k, IsEffectiveAdmin exampleStart.db k := by
  refine ⟨10, exampleAdmin 100, ⟨"first", .active, none, none⟩, ?_, rfl, ?_, rfl⟩
  · simp [exampleStart, exampleDb]
  · simp [exampleStart, exampleDb, exampleAdmin]

/-- The status of both users. -/
def userStatuses (c : Config Bool Statement Answer AppError (Db Bool) Unit) :
    Option Tenancy.UserStatus × Option Tenancy.UserStatus :=
  ((c.db.users.committed 100).map (·.status), (c.db.users.committed 101).map (·.status))

/-- One admin suspends the other, whose own request is refused then. -/
theorem platform_stays_administered_example :
    ∃ d, (machine Bool).Reaches ActorStays exampleStart d ∧
      userStatuses d = (some .active, some .suspended) ∧ ∃ k, IsEffectiveAdmin d.db k := by
  have played : ((machine Bool).play (fun t s db => decide (ActorStays t s db))
      (List.replicate 9 false ++ List.replicate 3 true) exampleStart).map userStatuses =
        some (some .active, some .suspended) := by decide
  obtain ⟨d, run, seen⟩ := Machine.run_of_play (fun _ _ _ passed => of_decide_eq_true passed) played
  exact ⟨d, run, seen,
    platform_stays_administered exampleStart_start .refl run exampleStart_administered⟩

/-- Both admins pass their checks before either suspends the other. -/
theorem admins_suspend_each_other :
    ¬∀ (op : Bool → PlatformOp) (start c d : Config Bool Statement Answer AppError (Db Bool) Unit),
      PlatformStart op start → (machine Bool).Reaches (fun _ _ _ => True) start c →
      (machine Bool).Reaches (fun _ _ _ => True) c d →
      (∃ k, IsEffectiveAdmin c.db k) → ∃ k, IsEffectiveAdmin d.db k := by
  intro claim
  have played : ((machine Bool).play (fun _ _ _ => true)
      (List.replicate 5 false ++ List.replicate 9 true ++ List.replicate 4 false)
      exampleStart).map (fun c => c.db.staff.keys.any fun k => (c.db.staff.committed k).any fun s =>
        (c.db.users.committed s.userId).any (·.isActive)) = some false := by decide
  have checked : ∀ (t : Bool) (s : Statement) (db : Db Bool), true = true → True :=
    fun _ _ _ _ => trivial
  obtain ⟨d, run, seen⟩ := Machine.run_of_play checked played
  obtain ⟨k, s, u, here, -, there, active⟩ :=
    claim _ _ _ d exampleStart_start .refl run exampleStart_administered
  have known := List.any_eq_false.mp seen k (Table.mem_keys_of_committed here)
  simp [here, there, active] at known

end SaasTemplate.Platform
