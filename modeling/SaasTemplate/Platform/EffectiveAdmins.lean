import SaasTemplate.Platform.Services

/-! # Somebody can administer the platform

A request looks at its actor once, at its start, and no operation takes the actor itself
away. So as long as an actor that takes away an admin is still one itself, an admin is
left. The locks on staff rows do not settle it: the suspension of a user takes none.
-/

set_option linter.unusedSectionVars false

namespace SaasTemplate.Platform

open SaasTemplate.Isolation SaasTemplate.Isolation.Prog

open SaasTemplate.Outbox (written written_same)

variable {τ : Type} [DecidableEq τ]

/-- An active admin of the platform whose user is active, in the committed rows. -/
def IsEffectiveAdmin (db : Db τ) (staffId : Uuid) : Prop :=
  ∃ s u, db.staff.committed staffId = some s ∧ s.isActiveAdmin = true ∧
    db.users.committed s.userId = some u ∧ u.isActive = true

/-- An effective admin whom no open transaction takes away. -/
def isSecure (db : Db τ) (staffId userId : Uuid) : Bool :=
  db.staff.settled (fun s => s.isActiveAdmin && s.userId == userId) staffId &&
    db.users.settled (·.isActive) userId

def HasSecureAdmin (db : Db τ) : Prop := ∃ staffId userId, isSecure db staffId userId = true

/-- Nobody can administer the platform, and nobody is about to. -/
structure Unadministered (db : Db τ) : Prop where
  users : ∀ k, db.users.holder k = none
  staff : ∀ k, db.staff.holder k = none
  nobody : ∀ k, ¬IsEffectiveAdmin db k

theorem effective_of_secure {db : Db τ} {staffId userId : Uuid}
    (h : isSecure db staffId userId = true) : IsEffectiveAdmin db staffId := by
  simp only [isSecure, Table.settled, Bool.and_eq_true, Option.any_eq_true, beq_iff_eq] at h
  obtain ⟨⟨⟨s, here, admin, rfl⟩, -⟩, ⟨u, there, active⟩, -⟩ := h
  exact ⟨s, u, here, admin, there, active⟩

theorem secure_iff {db : Db τ} {staffId userId : Uuid} :
    isSecure db staffId userId = true ↔
      db.staff.settled (fun s => s.isActiveAdmin && s.userId == userId) staffId = true ∧
        db.users.settled (·.isActive) userId = true := by
  simp [isSecure]

/-! ## The condition -/

/-- Does the statement take away an effective admin? -/
def takesAdmin (t : τ) (s : Statement) (db : Db τ) : Bool :=
  match s with
  | .flushStaff _ id loaded assigned => (db.staff.view t id).any fun current =>
      isSecure db id current.userId && !(loaded.flush assigned current).isActiveAdmin
  | .flushUser _ id loaded assigned => (db.users.view t id).any fun current =>
      (db.staff.keys.any fun k => isSecure db k id) && !(loaded.flush assigned current).isActive
  | _ => false

/-- Is the actor of the statement still an effective admin, whom no open transaction takes
    away? -/
def actorIsSecure (s : Statement) (db : Db τ) : Bool :=
  match s with
  | .flushStaff actor _ _ _ | .flushUser actor _ _ _ => isSecure db actor.staffId actor.userId
  | _ => true

/-- Whoever takes an admin away is still an admin then. -/
def ActorStays (t : τ) (s : Statement) (db : Db τ) : Prop :=
  takesAdmin t s db = true → actorIsSecure s db = true

instance (t : τ) (s : Statement) (db : Db τ) : Decidable (ActorStays t s db) :=
  inferInstanceAs (Decidable (_ → _))

/-! ## Writes -/

/-- The statement does not write the actor's own rows, nor whose record a row is. -/
def Statement.SparesActor : Statement → Prop
  | .flushStaff actor id loaded assigned => id ≠ actor.staffId ∧ assigned.userId = loaded.userId
  | .flushUser actor id _ _ => id ≠ actor.userId
  | _ => True

/-- Statements that lock or write rows. -/
def Statement.writes : Statement → Bool
  | .lockActiveAdmin _ | .flushStaff _ _ _ _ | .flushUser _ _ _ _ => true
  | _ => false

/-- What a statement needs to keep the invariant. -/
structure Needs (t : τ) (s : Statement) (db : Db τ) : Prop where
  stays : ActorStays t s db
  spares : s.SparesActor
  administered : s.writes = true → HasSecureAdmin db

/-- What a step may do: an admin stays, and where there is none nothing happens. -/
structure Moves (db db' : Db τ) : Prop where
  secure : HasSecureAdmin db → HasSecureAdmin db'
  nothing : Unadministered db → db'.users.cell = db.users.cell ∧ db'.staff.cell = db.staff.cell

section Steps

variable {t : τ} {s : Statement} {db db' : Db τ}

theorem secure_put_staff {k u id : Uuid} {row : PlatformStaff} (h : isSecure db k u = true)
    (meets : k = id → row.isActiveAdmin = true ∧ row.userId = u) :
    isSecure { db with staff := db.staff.put t id (some row) } k u = true := by
  obtain ⟨staff, users⟩ := secure_iff.mp h
  refine secure_iff.mpr ⟨?_, users⟩
  by_cases same : k = id
  · subst same
    exact Table.settled_put_same staff (by simpa using meets rfl)
  · rwa [Table.settled_put_other same]

theorem secure_put_user {k u id : Uuid} {row : User} (h : isSecure db k u = true)
    (meets : u = id → row.isActive = true) :
    isSecure { db with users := db.users.put t id (some row) } k u = true := by
  obtain ⟨staff, users⟩ := secure_iff.mp h
  refine secure_iff.mpr ⟨staff, ?_⟩
  by_cases same : u = id
  · subst same
    exact Table.settled_put_same users (meets rfl)
  · rwa [Table.settled_put_other same]

theorem view_of_secure {k u : Uuid} (h : isSecure db k u = true) {row : PlatformStaff}
    (seen : db.staff.view t k = some row) : row.isActiveAdmin = true ∧ row.userId = u := by
  have meets := Table.view_of_settled (secure_iff.mp h).1 t
  simpa [seen] using meets

theorem mem_keys_of_secure {k u : Uuid} (h : isSecure db k u = true) : k ∈ db.staff.keys := by
  obtain ⟨s, -, here, -⟩ := effective_of_secure h
  exact Table.mem_keys_of_committed here

theorem secure_flushStaff {actor : PlatformActor} {id : Uuid}
    {loaded assigned current : PlatformStaff} (h : HasSecureAdmin db)
    (needs : Needs t (.flushStaff actor id loaded assigned) db)
    (seen : db.staff.view t id = some current) :
    HasSecureAdmin
      { db with staff := db.staff.put t id (some (loaded.flush assigned current)) } := by
  obtain ⟨k, u, secure⟩ := h
  obtain ⟨other, owner⟩ : id ≠ actor.staffId ∧ assigned.userId = loaded.userId := needs.spares
  by_cases kept : k = id → (loaded.flush assigned current).isActiveAdmin = true
  · refine ⟨k, u, secure_put_staff secure fun same => ⟨kept same, ?_⟩⟩
    subst same
    simpa [PlatformStaff.flush, owner] using (view_of_secure secure seen).2
  · simp only [not_forall, Bool.not_eq_true] at kept
    obtain ⟨rfl, ends⟩ := kept
    have takes : takesAdmin t (.flushStaff actor k loaded assigned) db = true := by
      simp [takesAdmin, seen, (view_of_secure secure seen).2, secure, ends]
    exact ⟨actor.staffId, actor.userId,
      secure_put_staff (needs.stays takes) fun same => absurd same.symm other⟩

theorem secure_flushUser {actor : PlatformActor} {id : Uuid} {loaded assigned current : User}
    (h : HasSecureAdmin db) (needs : Needs t (.flushUser actor id loaded assigned) db)
    (seen : db.users.view t id = some current) :
    HasSecureAdmin
      { db with users := db.users.put t id (some (loaded.flush assigned current)) } := by
  obtain ⟨k, u, secure⟩ := h
  have other : id ≠ actor.userId := needs.spares
  by_cases kept : u = id → (loaded.flush assigned current).isActive = true
  · exact ⟨k, u, secure_put_user secure kept⟩
  · simp only [not_forall, Bool.not_eq_true] at kept
    obtain ⟨rfl, ends⟩ := kept
    have takes : takesAdmin t (.flushUser actor u loaded assigned) db = true := by
      simp only [takesAdmin, seen, Option.any_some, ends, Bool.not_false, Bool.and_true,
        List.any_eq_true]
      exact ⟨k, mem_keys_of_secure secure, secure⟩
    exact ⟨actor.staffId, actor.userId,
      secure_put_user (needs.stays takes) fun same => absurd same.symm other⟩

theorem secure_commit (h : HasSecureAdmin db) (t : τ) : HasSecureAdmin (db.commit t) := by
  obtain ⟨k, u, secure⟩ := h
  obtain ⟨staff, users⟩ := secure_iff.mp secure
  exact ⟨k, u, secure_iff.mpr ⟨Table.settled_commit staff, Table.settled_commit users⟩⟩

theorem secure_rollback (h : HasSecureAdmin db) (t : τ) : HasSecureAdmin (db.rollback t) := by
  obtain ⟨k, u, secure⟩ := h
  obtain ⟨staff, users⟩ := secure_iff.mp secure
  exact ⟨k, u, secure_iff.mpr ⟨Table.settled_rollback staff, Table.settled_rollback users⟩⟩

/-- Every statement keeps an admin if it has what it needs. -/
theorem Case.secure (case : Case t s db db') (needs : Needs t s db) (h : HasSecureAdmin db) :
    HasSecureAdmin db' := by
  cases case with
  | quiet => exact h
  | lockActiveAdmin id row is seen =>
      obtain ⟨k, u, secure⟩ := h
      refine ⟨k, u, secure_put_staff secure fun same => ?_⟩
      subst same
      exact view_of_secure secure seen
  | flushStaff actor id loaded assigned current is seen =>
      subst is
      exact secure_flushStaff h needs seen
  | flushUser actor id loaded assigned current is seen =>
      subst is
      exact secure_flushUser h needs seen
  | commit => exact secure_commit h t
  | rollback => exact secure_rollback h t

theorem Unadministered.not_secure (h : Unadministered db) : ¬HasSecureAdmin db := by
  rintro ⟨k, u, secure⟩
  exact h.nobody k (effective_of_secure secure)

/-- Without an admin nothing is written. -/
theorem Case.nothing (case : Case t s db db') (needs : Needs t s db) (h : Unadministered db) :
    db'.users.cell = db.users.cell ∧ db'.staff.cell = db.staff.cell := by
  have unheld : ∀ u k, db.users.holder k ≠ some u ∧ db.staff.holder k ≠ some u :=
    fun u k => ⟨by simp [h.users k], by simp [h.staff k]⟩
  have idle : s.writes = false := by
    by_contra writes
    exact h.not_secure (needs.administered (by simpa using writes))
  cases case with
  | quiet => exact ⟨rfl, rfl⟩
  | lockActiveAdmin id row is | flushStaff _ _ _ _ _ is | flushUser _ _ _ _ _ is =>
      simp [is, Statement.writes] at idle
  | commit =>
      exact ⟨funext fun k => Table.cell_commit_of_not_held (unheld t k).1,
        funext fun k => Table.cell_commit_of_not_held (unheld t k).2⟩
  | rollback =>
      exact ⟨funext fun k => Table.cell_rollback_of_not_held (unheld t k).1,
        funext fun k => Table.cell_rollback_of_not_held (unheld t k).2⟩

theorem Unadministered.of_cells (h : Unadministered db) (users : db'.users.cell = db.users.cell)
    (staff : db'.staff.cell = db.staff.cell) : Unadministered db' := by
  refine ⟨fun k => ?_, fun k => ?_, ?_⟩
  · simpa [Table.holder, users] using h.users k
  · simpa [Table.holder, staff] using h.staff k
  · rintro k ⟨s, u, here, admin, there, active⟩
    refine h.nobody k ⟨s, u, ?_, admin, ?_, active⟩
    · simpa [Table.committed, staff] using here
    · simpa [Table.committed, users] using there

/-- Somebody can administer the platform, or nobody ever will. -/
def Steady (db : Db τ) : Prop := HasSecureAdmin db ∨ Unadministered db

theorem Moves.steady (h : Moves db db') (before : Steady db) : Steady db' :=
  before.imp h.secure fun none => none.of_cells (h.nothing none).1 (h.nothing none).2

theorem Case.moves (case : Case t s db db') (needs : Needs t s db) : Moves db db' :=
  ⟨case.secure needs, case.nothing needs⟩

theorem Moves.refl (db : Db τ) : Moves db db := ⟨id, fun _ => ⟨rfl, rfl⟩⟩

theorem Moves.trans {a b c : Db τ} (first : Moves a b) (second : Moves b c) : Moves a c where
  secure := second.secure ∘ first.secure
  nothing none := by
    obtain ⟨users, staff⟩ := first.nothing none
    obtain ⟨users', staff'⟩ := second.nothing (none.of_cells users staff)
    exact ⟨users'.trans users, staff'.trans staff⟩

theorem needs_rollback (t : τ) (db : Db τ) : Needs t .rollback db := ⟨nofun, trivial, nofun⟩

end Steps

/-- The platform database as a store that clients use in transactions. -/
def platformDiscipline (τ : Type) [DecidableEq τ] : Discipline (machine τ) .commit .rollback where
  inv := Steady
  moves _ := Moves
  stays _ := Moves
  unchanged _ _ := True
  needs := Needs
  stays_refl _ := .refl
  stays_trans := .trans
  stays_of_moves _ moved := moved
  exec steady needs executed := by
    have moves := (exec_case executed).moves needs
    exact ⟨moves.steady steady, moves, fun _ => trivial⟩
  crash {t db} steady := by
    have moves : Moves db (db.rollback t) := (Case.rollback rfl).moves (needs_rollback t db)
    exact ⟨moves.steady steady, moves, trivial⟩
  env := by
    rintro db _ steady ⟨clock, rfl⟩
    have moves : Moves db { db with clock } := ⟨id, fun _ => ⟨rfl, rfl⟩⟩
    exact ⟨moves.steady steady, fun _ => moves, trivial⟩
  unchanged_refl _ := trivial
  differ := nofun
  rollback_needs := needs_rollback
  rollback_ok executed := by
    cases executed
    exact ⟨(), rfl⟩
  certain := by simp [machine]

/-- Each client shows that it spares its actor and that somebody administers the platform. -/
def platformTerms (τ : Type) [DecidableEq τ] : Terms (platformDiscipline τ) where
  promise _ _ _ := True
  allowed := ActorStays
  shows _ s db := s.SparesActor ∧ (s.writes = true → HasSecureAdmin db)
  unbroken _ _ _ _ := trivial
  enough _ stays shown := ⟨stays, shown.1, shown.2⟩
  rollback_shows _ _ := ⟨trivial, nofun⟩

abbrev platformContract (τ : Type) [DecidableEq τ] : Contract τ Statement (Db τ) :=
  (platformTerms τ).contract

end SaasTemplate.Platform
