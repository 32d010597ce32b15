import SaasTemplate.Isolation.Transactions
import SaasTemplate.Tenancy.ServiceStatements
import SaasTemplate.Tenancy.RowLaws

/-! # Contracts on the tenant database

Every client keeps the row laws and the locks of the others. What a particular result
asks on top of that is a promise about committed states; only commits can break it.
-/

set_option linter.unusedSectionVars false

namespace SaasTemplate.Tenancy

open SaasTemplate.Isolation SaasTemplate.Isolation.Prog

variable {τ : Type} [DecidableEq τ]

/-- The committed versions of all rows are the same. -/
structure SameCommitted (db db' : Db τ) : Prop where
  users : ∀ k, db'.users.committed k = db.users.committed k
  organisations : ∀ k, db'.organisations.committed k = db.organisations.committed k
  memberships : ∀ k, db'.memberships.committed k = db.memberships.committed k
  invites : ∀ k, db'.invites.committed k = db.invites.committed k

theorem SameCommitted.refl (db : Db τ) : SameCommitted db db :=
  ⟨fun _ => rfl, fun _ => rfl, fun _ => rfl, fun _ => rfl⟩

/-- A promise of each client about its steps that is kept by steps that commit nothing. -/
class CommitPromise (promise : τ → Db τ → Db τ → Prop) : Prop where
  same : ∀ t {db db'}, SameCommitted db db' → promise t db db'

theorem rollback_sameCommitted (t : τ) (db : Db τ) : SameCommitted db (db.rollback t) :=
  ⟨by simp [Db.rollback], by simp [Db.rollback], by simp [Db.rollback], by simp [Db.rollback]⟩

theorem rollback_lawful {text : TextOps} {t : τ} {db : Db τ} (lawful : db.Lawful text) :
    (db.rollback t).Lawful text ∧ Db.Moves t db (db.rollback t) :=
  Case.lawful (s := .rollback) (.rollback rfl) lawful

theorem Case.sameCommitted {text : TextOps} {t : τ} {s : Statement} {db db' : Db τ}
    (h : Case text t s db db') (open_ : s ≠ .commit) : SameCommitted db db' := by
  cases h with
  | commit is => exact absurd is open_
  | rollback => exact rollback_sameCommitted t db
  | _ => constructor <;> simp

theorem rollback_ne_commit : Statement.rollback ≠ .commit := by simp

theorem rollback_ok {text : TextOps} {t : τ} {db db' : Db τ} {r : Except AppError Unit}
    (executed : (machine τ text).exec t .rollback db = some (r, db')) : ∃ x, r = .ok x := by
  cases executed
  exact ⟨(), rfl⟩

theorem rollback_certain (τ : Type) [DecidableEq τ] (text : TextOps) :
    ¬(machine τ text).fallible .rollback := by
  simp [machine]

/-- Row laws, unique indexes and locks. -/
def tenantDiscipline (τ : Type) [DecidableEq τ] (text : TextOps) :
    Discipline (machine τ text) .commit .rollback where
  inv := Db.Lawful text
  moves := Db.Moves
  stays := Db.Stays
  unchanged := SameCommitted
  needs _ _ _ := True
  stays_refl := Db.Stays.refl
  stays_trans := Db.Stays.trans
  stays_of_moves other moved := moved.stays other
  exec lawful _ executed := by
    have case := exec_case lawful executed
    obtain ⟨kept, moved⟩ := case.lawful lawful
    exact ⟨kept, moved, case.sameCommitted⟩
  crash lawful :=
    ⟨(rollback_lawful lawful).1, (rollback_lawful lawful).2, rollback_sameCommitted _ _⟩
  env := by
    rintro db db' lawful ⟨clock, rfl⟩
    exact ⟨⟨lawful.users, lawful.organisations, lawful.memberships, lawful.invites⟩,
      fun t => ⟨.refl _ t _, .refl _ t _, .refl _ t _, .refl _ t _⟩,
      ⟨fun _ => rfl, fun _ => rfl, fun _ => rfl, fun _ => rfl⟩⟩
  unchanged_refl := .refl
  differ := rollback_ne_commit
  rollback_needs _ _ := trivial
  rollback_ok := rollback_ok
  certain := rollback_certain τ text

/-- A promise about commits, and what a client shows when it commits. -/
def tenantTerms (text : TextOps) (promise : τ → Db τ → Db τ → Prop) [CommitPromise promise]
    (allowed : τ → Statement → Db τ → Prop) (ready : τ → Db τ → Prop) :
    Terms (tenantDiscipline τ text) where
  promise := promise
  allowed := allowed
  shows t s db := s = .commit → ready t db
  unbroken t _ _ := CommitPromise.same t
  enough _ _ _ := trivial
  rollback_shows _ _ := nofun

/-- Row laws and locks for everyone, together with a promise and with what a client
    shows when it commits. -/
abbrev tenantContract (text : TextOps) (promise : τ → Db τ → Db τ → Prop) [CommitPromise promise]
    (allowed : τ → Statement → Db τ → Prop) (ready : τ → Db τ → Prop := fun _ _ => True) :
    Contract τ Statement (Db τ) := (tenantTerms text promise allowed ready).contract

section Steps

variable {text : TextOps} {t : τ} {s : Statement} {db db' : Db τ}
  {promise : τ → Db τ → Db τ → Prop} {allowed : τ → Statement → Db τ → Prop}
  {ready : τ → Db τ → Prop} {α : Type}

theorem exec_commit {r : Except AppError Unit}
    (h : (machine τ text).exec t .commit db = some (r, db')) :
    r = .ok () ∧ db' = db.commit t := by
  cases h
  exact ⟨rfl, rfl⟩

/-- A step commits nothing, or it is the commit of one client. -/
theorem step_commits {permitted : τ → Statement → Db τ → Prop}
    {c d : Config τ Statement Answer AppError (Db τ) α} (lawful : c.db.Lawful text)
    (step : (machine τ text).Step permitted c d) :
    SameCommitted c.db d.db ∨ ∃ t k, c.run t = some (.call .commit k) ∧ d.db = c.db.commit t ∧
      d.run = Function.update c.run t (some (k (.ok ()))) := by
  rcases (tenantDiscipline τ text).step_commits lawful (fun _ _ _ _ _ => trivial) step with
    same | ⟨t, k, r, running, executed, runs⟩
  · exact .inl same
  · obtain ⟨rfl, commits⟩ := exec_commit executed
    exact .inr ⟨t, k, running, commits, runs⟩

variable [CommitPromise promise]

theorem tenantContract_sound :
    (tenantContract text promise allowed ready).Sound (machine τ text) := Terms.sound _

/-- One statement of a transaction: only its effect on the assertion remains to be shown. -/
theorem triple_sql {A : Db τ → Prop} {B : Answer s → Db τ → Prop}
    (stable : (tenantContract text promise allowed ready).Stable t A) (open_ : s ≠ .commit)
    (effect : ∀ db a db', A db → db.Lawful text → allowed t s db →
      exec text t s db = some (.ok a, db') → B a db') :
    Triple (machine τ text) (tenantContract text promise allowed ready) t A (sql s) B :=
  Terms.triple_stmt stable open_ (fun _ _ _ is => absurd is open_) effect

/-- A program whose statements commit nothing and keep a stable assertion. -/
theorem triple_only {A : Db τ → Prop} {P : Statement → Prop} {body : Tx α}
    (stable : (tenantContract text promise allowed ready).Stable t A) (open_ : ¬P .commit)
    (keeps : ∀ s db r db', P s → A db → db.Lawful text → allowed t s db →
      exec text t s db = some (r, db') → A db')
    (only : body.Only P) :
    Triple (machine τ text) (tenantContract text promise allowed ready) t A body fun _ => A :=
  Terms.triple_only stable open_ (fun _ _ inside _ _ is => absurd (is ▸ inside) open_) keeps only

/-- Quiet statements keep every stable assertion. -/
theorem triple_quiet {A : Db τ → Prop} {body : Tx α}
    (stable : (tenantContract text promise allowed ready).Stable t A)
    (only : body.Only (·.isQuiet = true)) :
    Triple (machine τ text) (tenantContract text promise allowed ready) t A body fun _ => A :=
  triple_only stable nofun
    (fun _ _ _ _ quiet h _ _ executed => exec_quiet quiet executed ▸ h) only

/-- A transaction keeps the contract if its body ends ready to keep the promise. -/
theorem wp_inTransaction {body : Tx α} {A : Db τ → Prop} {Ready : α → Db τ → Prop}
    (run : Triple (machine τ text) (tenantContract text promise allowed ready) t A body Ready)
    (stable : ∀ a, (tenantContract text promise allowed ready).Stable t (Ready a))
    (commits : ∀ a db, Ready a db → db.Lawful text → ready t db ∧ promise t db (db.commit t))
    (start : A db) :
    wp (machine τ text) (tenantContract text promise allowed ready) t (inTransaction body)
      (fun _ _ => True) db := by
  refine Terms.wp_block run stable (fun a db held lawful _ => (commits a db held lawful).1) ?_
    (fun _ _ _ _ _ _ => trivial) start
  intro a db r db' held lawful executed
  cases executed
  exact ⟨(commits a db held lawful).2, fun _ _ => trivial⟩

/-- A transaction all of whose statements keep an assertion with which it may commit. -/
theorem wp_transactional {A : Db τ → Prop} {P : Statement → Prop} {p : Tx α}
    (trans : p.Transactional .commit .rollback P)
    (stable : (tenantContract text promise allowed ready).Stable t A)
    (keeps : ∀ s db r db', s = .rollback ∨ P s → A db → db.Lawful text → allowed t s db →
      exec text t s db = some (r, db') → A db')
    (commits : ∀ db, A db → db.Lawful text → ready t db ∧ promise t db (db.commit t))
    (start : A db) :
    wp (machine τ text) (tenantContract text promise allowed ready) t p (fun _ _ => True) db := by
  refine Terms.wp_transactional trans stable
    (fun s db _ held lawful _ => (commits db held lawful).1) keeps ?_ start
  intro db r db' held lawful executed
  cases executed
  exact ⟨⟨(), rfl⟩, (commits db held lawful).2⟩

end Steps

end SaasTemplate.Tenancy
