import Mathlib.Data.List.Sort
import SaasTemplate.Isolation.Transactions
import SaasTemplate.Isolation.RowStatements
import SaasTemplate.Platform.Model

/-! # The platform: the statements

The statements of the staff and user repositories. The `SELECT ... FOR UPDATE` of the
active admins is the list of ids it finds followed by one locking statement for each.
-/

set_option linter.unusedSectionVars false

namespace SaasTemplate.Platform

open SaasTemplate.Isolation

/-- The tables of users and platform staff, and the wall clock. -/
structure Db (τ : Type) where
  users : Table Uuid τ User
  staff : Table Uuid τ PlatformStaff
  clock : Time

inductive Statement where
  | now
  | rateLimit
  | userByExternalAuthId (externalAuthId : String)
  | userById (id : Uuid)
  | staffByUserId (user : Uuid)
  | staffById (id : Uuid)
  | activeAdminIds
  | lockActiveAdmin (id : Uuid)
  | flushStaff (actor : PlatformActor) (id : Uuid) (loaded assigned : PlatformStaff)
  | flushUser (actor : PlatformActor) (id : Uuid) (loaded assigned : User)
  | recordAuditEvent
  | commit
  | rollback
  deriving DecidableEq

/-- What a statement returns when it succeeds. -/
abbrev Answer : Statement → Type
  | .now => Time
  | .userByExternalAuthId _ => Option (Uuid × User)
  | .userById _ => Option User
  | .staffByUserId _ => Option (Uuid × PlatformStaff)
  | .staffById _ | .lockActiveAdmin _ => Option PlatformStaff
  | .activeAdminIds => List Uuid
  | _ => Unit

section Exec

variable {τ α : Type} [DecidableEq τ] (t : τ)

/-- The effect of a statement: it waits, or it answers and leaves a database. -/
abbrev Effect (τ α : Type) : Type := Option (Except AppError α × Db τ)

def read (a : α) (db : Db τ) : Effect τ α := some (.ok a, db)

/-- An ORM flush expects to find the row it updates. -/
def flushed {ρ : Type} : Except AppError (Option ρ) → Except AppError Unit
  | .ok (some _) => .ok ()
  | .ok none => .error .staleDataError
  | .error e => .error e

/-- The end of transaction `t` with all its writes. -/
def Db.commit (db : Db τ) : Db τ :=
  { db with users := db.users.commit t, staff := db.staff.commit t }

/-- The end of transaction `t` without a trace. -/
def Db.rollback (db : Db τ) : Db τ :=
  { db with users := db.users.rollback t, staff := db.staff.rollback t }

/-- What each statement does. -/
def exec (s : Statement) (db : Db τ) : Effect τ (Answer s) :=
  match s with
  | .now => read db.clock db
  | .rateLimit | .recordAuditEvent => read () db
  | .userByExternalAuthId externalAuthId =>
      read (db.users.selectOne t fun _ u => u.externalAuthId == externalAuthId) db
  | .userById id => read (db.users.view t id) db
  | .staffByUserId user => read (db.staff.selectOne t fun _ s => s.userId == user) db
  | .staffById id => read (db.staff.view t id) db
  | .activeAdminIds =>
      read (((db.staff.select t fun _ s => s.isActiveAdmin).map (·.1)).insertionSort (· ≤ ·)) db
  | .lockActiveAdmin id =>
      (db.staff.lockRow t id (·.isActiveAdmin)).map fun out => (.ok out.1, { db with staff := out.2 })
  | .flushStaff _ id loaded assigned =>
      if assigned = loaded then read () db
      else (db.staff.update PlatformStaff.entries .integrityError t id fun current =>
        some (loaded.flush assigned current)).map fun out =>
          (flushed out.1, { db with staff := out.2 })
  | .flushUser _ id loaded assigned =>
      if assigned = loaded then read () db
      else (db.users.update User.entries .integrityError t id fun current =>
        some (loaded.flush assigned current)).map fun out =>
          (flushed out.1, { db with users := out.2 })
  | .commit => read () (db.commit t)
  | .rollback => read () (db.rollback t)

end Exec

/-- The platform database. Any statement but a rollback may fail; a client that is lost is
    rolled back by the server; the clock may show anything. -/
def machine (τ : Type) [DecidableEq τ] : Machine τ Statement Answer AppError (Db τ) where
  exec := exec
  fallible s := s ≠ .rollback
  crash t db := db.rollback t
  env db db' := ∃ clock, db' = { db with clock }

/-! ## What a step does to users and staff -/

/-- The effect of statement `s` of `t` on users and staff, and when it has it. -/
inductive Case {τ : Type} [DecidableEq τ] (t : τ) (s : Statement) (db : Db τ) : Db τ → Prop where
  | quiet : s ≠ .commit → Case t s db db
  | lockActiveAdmin (id : Uuid) (row : PlatformStaff) : s = .lockActiveAdmin id →
      db.staff.view t id = some row → Case t s db { db with staff := db.staff.put t id (some row) }
  | flushStaff (actor : PlatformActor) (id : Uuid) (loaded assigned current : PlatformStaff) :
      s = .flushStaff actor id loaded assigned → db.staff.view t id = some current →
      Case t s db { db with staff := db.staff.put t id (some (loaded.flush assigned current)) }
  | flushUser (actor : PlatformActor) (id : Uuid) (loaded assigned current : User) :
      s = .flushUser actor id loaded assigned → db.users.view t id = some current →
      Case t s db { db with users := db.users.put t id (some (loaded.flush assigned current)) }
  | commit : s = .commit → Case t s db (db.commit t)
  | rollback : s = .rollback → Case t s db (db.rollback t)

/-- Every statement has one of these effects. -/
theorem exec_case {τ : Type} [DecidableEq τ] {t : τ} {s : Statement} {db db' : Db τ}
    {r : Except AppError (Answer s)} (h : exec t s db = some (r, db')) : Case t s db db' := by
  cases s with
  | now | rateLimit | userByExternalAuthId | userById | staffByUserId | staffById
  | activeAdminIds | recordAuditEvent =>
      cases h
      exact .quiet nofun
  | lockActiveAdmin id =>
      obtain ⟨⟨out, T⟩, locked, is⟩ := Option.map_eq_some_iff.mp h
      cases is
      rcases Table.lockRow_cases locked with ⟨rfl, -⟩ | ⟨row, seen, -, -, rfl, -⟩
      · exact .quiet nofun
      · exact .lockActiveAdmin id row rfl seen
  | flushStaff actor id loaded assigned =>
      simp only [exec] at h
      split at h
      · cases h
        exact .quiet nofun
      · obtain ⟨⟨out, T⟩, updated, is⟩ := Option.map_eq_some_iff.mp h
        cases is
        rcases Table.update_cases updated with ⟨rfl, -⟩ | ⟨row, r, seen, is, -, rfl, -⟩
        · exact .quiet nofun
        · cases is
          exact .flushStaff actor id loaded assigned row rfl seen
  | flushUser actor id loaded assigned =>
      simp only [exec] at h
      split at h
      · cases h
        exact .quiet nofun
      · obtain ⟨⟨out, T⟩, updated, is⟩ := Option.map_eq_some_iff.mp h
        cases is
        rcases Table.update_cases updated with ⟨rfl, -⟩ | ⟨row, r, seen, is, -, rfl, -⟩
        · exact .quiet nofun
        · cases is
          exact .flushUser actor id loaded assigned row rfl seen
  | commit =>
      cases h
      exact .commit rfl
  | rollback =>
      cases h
      exact .rollback rfl

end SaasTemplate.Platform
