import SaasTemplate.Isolation.Runs

/-! # Clients that work in transactions

A `Discipline` collects what all clients of a transactional store keep: an invariant, the
locks of the others, and that nothing becomes visible to them before a commit. A
particular result adds its `Terms` to it: what a client promises about its commits, and
what it shows before a statement. The rules of the logic are then stated once, for a
statement, for a transaction block, and for a whole transactional program.
-/

set_option linter.unusedSectionVars false

namespace SaasTemplate.Isolation

open Prog

variable {τ S : Type} {R : S → Type} {ε Db α : Type}

/-- What all clients keep. A step of `t` is one of its `moves`, `t` counts on `stays` of
    the others, `unchanged` says that nothing has been committed, and `needs` is what a
    statement needs to keep the rest. -/
structure Discipline (M : Machine τ S R ε Db) (commit rollback : S) where
  inv : Db → Prop
  moves : τ → Db → Db → Prop
  stays : τ → Db → Db → Prop
  unchanged : Db → Db → Prop
  needs : τ → S → Db → Prop
  stays_refl : ∀ t db, stays t db db
  stays_trans : ∀ {t a b c}, stays t a b → stays t b c → stays t a c
  stays_of_moves : ∀ {t u db db'}, u ≠ t → moves t db db' → stays u db db'
  exec : ∀ {t s db r db'}, inv db → needs t s db → M.exec t s db = some (r, db') →
    inv db' ∧ moves t db db' ∧ (s ≠ commit → unchanged db db')
  crash : ∀ {t db}, inv db →
    inv (M.crash t db) ∧ moves t db (M.crash t db) ∧ unchanged db (M.crash t db)
  env : ∀ {db db'}, inv db → M.env db db' →
    inv db' ∧ (∀ t, stays t db db') ∧ unchanged db db'
  unchanged_refl : ∀ db, unchanged db db
  differ : rollback ≠ commit
  rollback_needs : ∀ t db, needs t rollback db
  rollback_ok : ∀ {t db r db'}, M.exec t rollback db = some (r, db') → ∃ x, r = .ok x
  certain : ¬M.fallible rollback

/-- What a particular result asks for on top: a promise of each client about its commits,
    which statements may be executed, and what is shown before a statement. -/
structure Terms {M : Machine τ S R ε Db} {commit rollback : S}
    (D : Discipline M commit rollback) where
  promise : τ → Db → Db → Prop
  allowed : τ → S → Db → Prop
  shows : τ → S → Db → Prop
  unbroken : ∀ t {db db'}, D.unchanged db db' → promise t db db'
  enough : ∀ {t s db}, D.inv db → allowed t s db → shows t s db → D.needs t s db
  rollback_shows : ∀ t db, shows t rollback db

namespace Terms

variable {M : Machine τ S R ε Db} {commit rollback : S} {D : Discipline M commit rollback}
  (T : Terms D)

/-- What `t` relies on: its own rows stay, and the others only do what they promise. -/
structure Relies (t : τ) (db db' : Db) : Prop where
  stays : D.stays t db db'
  promised : Relation.ReflTransGen (fun a b => ∃ u, T.promise u a b) db db'

/-- The contract of the discipline with these terms. -/
def contract : Contract τ S Db where
  inv := D.inv
  guar t db db' := D.moves t db db' ∧ T.promise t db db'
  rely := T.Relies
  allowed := T.allowed
  shows := T.shows

theorem sound : T.contract.Sound M where
  rely_refl t db := ⟨D.stays_refl t db, .refl⟩
  rely_trans _ _ _ _ first second :=
    ⟨D.stays_trans first.stays second.stays, first.promised.trans second.promised⟩
  guar_rely other _ _ promised := ⟨D.stays_of_moves other promised.1, .single ⟨_, promised.2⟩⟩
  env_inv holds moved := (D.env holds moved).1
  env_rely := by
    intro t db db' holds moved
    obtain ⟨-, stays, same⟩ := D.env holds moved
    exact ⟨stays t, .single ⟨t, T.unbroken t same⟩⟩
  crash_inv holds := (D.crash holds).1
  crash_guar holds := ⟨(D.crash holds).2.1, T.unbroken _ (D.crash holds).2.2⟩

section Rules

variable {T} {t : τ} {s : S} {db : Db}

/-- Every statement but the commit keeps the contract by itself. -/
theorem keeps {r : Except ε (R s)} {db' : Db} (holds : D.inv db) (permitted : T.allowed t s db)
    (shown : T.shows t s db) (executed : M.exec t s db = some (r, db')) (open_ : s ≠ commit) :
    D.inv db' ∧ D.moves t db db' ∧ T.promise t db db' := by
  obtain ⟨kept, moved, same⟩ := D.exec holds (T.enough holds permitted shown) executed
  exact ⟨kept, moved, T.unbroken t (same open_)⟩

/-- One statement, however it ends: a statement that fails by itself has no effect. -/
theorem wp_statement {A : Db → Prop} {Q : Except ε (R s) → Db → Prop}
    (stable : T.contract.Stable t A) (open_ : s ≠ commit)
    (shown : ∀ db, A db → D.inv db → T.shows t s db)
    (effect : ∀ db r db', A db → D.inv db → T.allowed t s db → M.exec t s db = some (r, db') →
      Q r db')
    (fails : ∀ e db, A db → Q (.error e) db) (start : A db) :
    wp M T.contract t (stmt s) Q db := by
  refine wp_stmt fun db' moved holds => ?_
  have here := stable db db' start moved holds
  refine ⟨shown db' here holds, fun r db'' permitted executed => ?_, fun _ e => fails e db' here⟩
  obtain ⟨kept, moved, promised⟩ := keeps holds permitted (shown db' here holds) executed open_
  exact ⟨kept, ⟨moved, promised⟩, effect db' r db'' here holds permitted executed⟩

/-- One statement of a transaction: the contract is kept anyway, so only what it shows and
    its effect on the assertion remain. -/
theorem triple_stmt {A : Db → Prop} {B : R s → Db → Prop} (stable : T.contract.Stable t A)
    (open_ : s ≠ commit) (shown : ∀ db, A db → D.inv db → T.shows t s db)
    (effect : ∀ db a db', A db → D.inv db → T.allowed t s db →
      M.exec t s db = some (.ok a, db') → B a db') :
    Triple M T.contract t A (stmt s) B := by
  refine .stmt stable shown fun db r db' start holds permitted executed => ?_
  obtain ⟨kept, moved, promised⟩ := keeps holds permitted (shown db start holds) executed open_
  refine ⟨kept, ⟨moved, promised⟩, ?_⟩
  rintro a rfl
  exact effect db a db' start holds permitted executed

/-- A program whose statements commit nothing and keep a stable assertion. -/
theorem wp_only {A : Db → Prop} {P : S → Prop} {body : Prog S R ε α}
    (stable : T.contract.Stable t A) (open_ : ¬P commit)
    (shown : ∀ s db, P s → A db → D.inv db → T.shows t s db)
    (keeps : ∀ s db r db', P s → A db → D.inv db → T.allowed t s db →
      M.exec t s db = some (r, db') → A db')
    (only : body.Only P) (start : A db) : wp M T.contract t body (fun _ => A) db := by
  refine wp_of_only stable shown (fun s db r db' inside held holds permitted executed => ?_) only start
  have notCommit : s ≠ commit := fun is => open_ (is ▸ inside)
  obtain ⟨kept, moved, promised⟩ :=
    Terms.keeps holds permitted (shown s db inside held holds) executed notCommit
  exact ⟨kept, ⟨moved, promised⟩, keeps s db r db' inside held holds permitted executed⟩

theorem triple_only {A : Db → Prop} {P : S → Prop} {body : Prog S R ε α}
    (stable : T.contract.Stable t A) (open_ : ¬P commit)
    (shown : ∀ s db, P s → A db → D.inv db → T.shows t s db)
    (keeps : ∀ s db r db', P s → A db → D.inv db → T.allowed t s db →
      M.exec t s db = some (r, db') → A db')
    (only : body.Only P) : Triple M T.contract t A body fun _ => A :=
  fun _ start => wp_mono (fun _ _ held _ _ => held) (wp_only stable open_ shown keeps only start)

/-- A transaction block keeps the contract if its body ends ready for the commit. -/
theorem wp_block {body : Prog S R ε α} {A : Db → Prop} {Ready : α → Db → Prop}
    {Q : Except ε α → Db → Prop} (run : Triple M T.contract t A body Ready)
    (stable : ∀ a, T.contract.Stable t (Ready a))
    (shown : ∀ a db, Ready a db → D.inv db → T.shows t commit db)
    (commits : ∀ a db r db', Ready a db → D.inv db → M.exec t commit db = some (r, db') →
      T.promise t db db' ∧ ∀ x, r = .ok x → Q (.ok a) db')
    (rolls : ∀ e db r db', D.inv db → M.exec t rollback db = some (r, db') → Q (.error e) db')
    (start : A db) : wp M T.contract t (transaction commit rollback body) Q db := by
  refine wp_transaction run stable shown ?_ (fun db _ => T.rollback_shows t db) ?_ D.certain db start
  · intro a db r db' held holds permitted executed
    obtain ⟨kept, moved, -⟩ :=
      D.exec holds (T.enough holds permitted (shown a db held holds)) executed
    obtain ⟨promised, ends⟩ := commits a db r db' held holds executed
    exact ⟨kept, ⟨moved, promised⟩, ends⟩
  · intro e db r db' holds executed
    obtain ⟨kept, moved, same⟩ := D.exec holds (D.rollback_needs t db) executed
    exact ⟨D.rollback_ok executed, kept, ⟨moved, T.unbroken t (same D.differ)⟩,
      rolls e db r db' holds executed⟩

/-- The same with an assertion for the exceptions of the body too, if the commit cannot fail. -/
theorem wp_block_raising {body : Prog S R ε α} {Ready : Except ε α → Db → Prop}
    {Q : Except ε α → Db → Prop} (stable : ∀ r, T.contract.Stable t (Ready r))
    (shown : ∀ a db, Ready (.ok a) db → D.inv db → T.shows t commit db)
    (sure : ¬M.fallible commit)
    (commits : ∀ a db r db', Ready (.ok a) db → D.inv db → M.exec t commit db = some (r, db') →
      (∃ x, r = .ok x) ∧ T.promise t db db' ∧ Q (.ok a) db')
    (rolls : ∀ e db r db', Ready (.error e) db → D.inv db → M.exec t rollback db = some (r, db') →
      Q (.error e) db')
    (run : wp M T.contract t body Ready db) :
    wp M T.contract t (transaction commit rollback body) Q db := by
  apply wp_handle
  apply wp_bind
  refine wp_mono ?_ run
  intro r middle held
  cases r with
  | error e =>
      apply wp_bind
      refine wp_stmt fun before moved holds => ?_
      have here := stable _ middle before held moved holds
      refine ⟨T.rollback_shows t before, fun r after _ executed => ?_, fun may => absurd may D.certain⟩
      obtain ⟨x, rfl⟩ := D.rollback_ok executed
      obtain ⟨kept, moves, same⟩ := D.exec holds (D.rollback_needs t before) executed
      exact ⟨kept, ⟨moves, T.unbroken t (same D.differ)⟩, rolls e before _ after here holds executed⟩
  | ok a =>
      apply wp_bind
      refine wp_stmt fun before moved holds => ?_
      have here := stable _ middle before held moved holds
      have shows' := shown a before here holds
      refine ⟨shows', fun r after ok executed => ?_, fun may => absurd may sure⟩
      obtain ⟨kept, moves, -⟩ := D.exec holds (T.enough holds ok shows') executed
      obtain ⟨⟨x, rfl⟩, promised, ends⟩ := commits a before r after here holds executed
      exact ⟨kept, ⟨moves, promised⟩, ends⟩

/-- A transaction all of whose statements keep an assertion with which it may commit. -/
theorem wp_transactional {A : Db → Prop} {P : S → Prop} {p : Prog S R ε α}
    (trans : p.Transactional commit rollback P) (stable : T.contract.Stable t A)
    (shown : ∀ s db, s = commit ∨ P s → A db → D.inv db → T.shows t s db)
    (keeps : ∀ s db r db', s = rollback ∨ P s → A db → D.inv db → T.allowed t s db →
      M.exec t s db = some (r, db') → A db')
    (commits : ∀ db r db', A db → D.inv db → M.exec t commit db = some (r, db') →
      (∃ x, r = .ok x) ∧ T.promise t db db')
    (start : A db) : wp M T.contract t p (fun _ _ => True) db := by
  obtain ⟨last, only⟩ := trans
  induction p generalizing db with
  | done r => trivial
  | call s k ih =>
      intro db' moved holds
      have here := stable db db' start moved holds
      have shows' : T.shows t s db' := by
        rcases only.1 with is | rfl | inside
        · exact shown s db' (.inl is) here holds
        · exact T.rollback_shows t db'
        · exact shown s db' (.inr inside) here holds
      refine ⟨shows', fun r db'' permitted executed => ?_, fun _ e =>
        ih _ here (last.2 _ fun _ => ⟨e, rfl⟩) (only.2 _)⟩
      by_cases is : s = commit
      · subst is
        obtain ⟨kept, moves, -⟩ := D.exec holds (T.enough holds permitted shows') executed
        obtain ⟨⟨x, rfl⟩, promised⟩ := commits db' r db'' here holds executed
        obtain ⟨a, ends⟩ := last.1 rfl x
        exact ⟨kept, ⟨moves, promised⟩, by rw [ends]; trivial⟩
      · obtain ⟨kept, moves, promised⟩ := Terms.keeps holds permitted shows' executed is
        have inside : s = rollback ∨ P s := only.1.resolve_left is
        exact ⟨kept, ⟨moves, promised⟩, ih r (keeps s db' r db'' inside here holds permitted executed)
          (last.2 r fun same => absurd same is) (only.2 r)⟩

/-- A check before the transaction. -/
theorem wp_checked {C : Contract τ S Db} {cond : Prop} [Decidable cond] {e : ε}
    {p : Prog S R ε α} (h : wp M C t p (fun _ _ => True) db) :
    wp M C t (raiseIf cond e >>= fun _ => p) (fun _ _ => True) db := by
  apply wp_bind
  unfold raiseIf
  split
  · trivial
  · exact h

/-- A program whose result is dropped. -/
theorem wp_result {C : Contract τ S Db} {p : Prog S R ε α}
    (h : wp M C t p (fun _ _ => True) db) :
    wp M C t (p >>= fun _ => pure ()) (fun _ _ => True) db :=
  wp_bind (wp_mono (fun r _ _ => by cases r <;> trivial) h)

end Rules

end Terms

/-- A step commits nothing, or it is the commit of one client. -/
theorem Discipline.step_commits [DecidableEq τ] {M : Machine τ S R ε Db} {commit rollback : S}
    (D : Discipline M commit rollback) {permitted : τ → S → Db → Prop} {c d : Config τ S R ε Db α}
    (holds : D.inv c.db)
    (needed : ∀ t s k, c.run t = some (.call s k) → permitted t s c.db → D.needs t s c.db)
    (step : M.Step permitted c d) :
    D.unchanged c.db d.db ∨ ∃ t k r, c.run t = some (.call commit k) ∧
      M.exec t commit c.db = some (r, d.db) ∧ d.run = Function.update c.run t (some (k r)) := by
  cases step with
  | @exec t s k r db' running ok executed =>
      by_cases is : s = commit
      · subst is
        exact .inr ⟨t, k, r, running, executed, rfl⟩
      · exact .inl ((D.exec holds (needed t s k running ok) executed).2.2 is)
  | fault => exact .inl (D.unchanged_refl c.db)
  | crash => exact .inl (D.crash holds).2.2
  | env moved => exact .inl (D.env holds moved).2.2

end SaasTemplate.Isolation
