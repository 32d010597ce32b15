import Mathlib.Logic.Relation
import SaasTemplate.Isolation.Program

/-! # Running programs side by side, and a rely-guarantee logic for them

A `Machine` says what one statement does to the store. A configuration holds the
store and the rest of every client's program; one step executes one statement of
one client. `wp` is the weakest precondition of a program whose statements may be
separated by any steps of the others that its `rely` relation allows. The rule
`Contract.Sound.invariant` turns one `wp` proof per program into an invariant of
every run of any number of clients.
-/

set_option linter.unusedSectionVars false

namespace SaasTemplate.Isolation

variable {τ S : Type} {R : S → Type} {ε Db α β γ : Type}

/-- What statements do. `exec` answers `none` while the statement has to wait.
    A `fallible` statement may also fail without an effect; `crash` is the end of
    a client whose connection is lost; `env` are the steps no client takes. -/
structure Machine (τ S : Type) (R : S → Type) (ε Db : Type) where
  exec : τ → (s : S) → Db → Option (Except ε (R s) × Db)
  fallible : S → Prop
  crash : τ → Db → Db
  env : Db → Db → Prop

/-- The store and the programs still to be run; `none` is a client that crashed. -/
structure Config (τ S : Type) (R : S → Type) (ε Db α : Type) where
  db : Db
  run : τ → Option (Prog S R ε α)

/-- The statement that client `t` issues next. -/
def Config.waiting (c : Config τ S R ε Db α) (t : τ) : Option S :=
  match c.run t with
  | some (.call s _) => some s
  | _ => none

/-- How the program of client `t` ended. -/
def Config.result (c : Config τ S R ε Db α) (t : τ) : Option (Except ε α) :=
  match c.run t with
  | some (.done r) => some r
  | _ => none

theorem Config.run_of_waiting {c : Config τ S R ε Db α} {t : τ} {s : S}
    (h : c.waiting t = some s) : ∃ k, c.run t = some (.call s k) := by
  unfold waiting at h
  split at h
  · rename_i s' k running
    cases h
    exact ⟨k, running⟩
  · cases h

theorem Config.run_of_result {c : Config τ S R ε Db α} {t : τ} {r : Except ε α}
    (h : c.result t = some r) : c.run t = some (.done r) := by
  unfold result at h
  split at h
  · rename_i r' ended
    cases h
    exact ended
  · cases h

namespace Machine

variable [DecidableEq τ] (M : Machine τ S R ε Db)

/-- One step of a run in which every executed statement meets `allowed`. -/
inductive Step (allowed : τ → S → Db → Prop) :
    Config τ S R ε Db α → Config τ S R ε Db α → Prop where
  | exec {c : Config τ S R ε Db α} {t s k r db'} :
      c.run t = some (.call s k) → allowed t s c.db → M.exec t s c.db = some (r, db') →
      Step allowed c ⟨db', Function.update c.run t (some (k r))⟩
  | fault {c : Config τ S R ε Db α} {t s k} (e : ε) :
      c.run t = some (.call s k) → M.fallible s →
      Step allowed c ⟨c.db, Function.update c.run t (some (k (.error e)))⟩
  | crash {c : Config τ S R ε Db α} {t s k} :
      c.run t = some (.call s k) →
      Step allowed c ⟨M.crash t c.db, Function.update c.run t none⟩
  | env {c : Config τ S R ε Db α} {db'} :
      M.env c.db db' → Step allowed c ⟨db', c.run⟩

/-- A step after which client `t` is elsewhere in its program is a step of `t`. -/
theorem Step.of_moved {M : Machine τ S R ε Db} {allowed : τ → S → Db → Prop}
    {c d : Config τ S R ε Db α} (h : M.Step allowed c d) {t : τ} {s : S}
    {k : Except ε (R s) → Prog S R ε α} (running : c.run t = some (.call s k))
    (moved : d.run t ≠ c.run t) :
    (∃ r, allowed t s c.db ∧ M.exec t s c.db = some (r, d.db) ∧ d.run t = some (k r)) ∨
    (∃ e, M.fallible s ∧ d.db = c.db ∧ d.run t = some (k (.error e))) ∨
    d.db = M.crash t c.db ∧ d.run t = none := by
  cases h with
  | @exec u s' k' r db' running' ok executed =>
      by_cases same : t = u
      · subst same
        cases Option.some.inj (running.symm.trans running')
        exact .inl ⟨r, ok, executed, by simp⟩
      · exact absurd (by simp [Function.update_of_ne same]) moved
  | @fault u s' k' e running' may =>
      by_cases same : t = u
      · subst same
        cases Option.some.inj (running.symm.trans running')
        exact .inr (.inl ⟨e, may, rfl, by simp⟩)
      · exact absurd (by simp [Function.update_of_ne same]) moved
  | @crash u s' k' running' =>
      by_cases same : t = u
      · subst same
        exact .inr (.inr ⟨rfl, by simp⟩)
      · exact absurd (by simp [Function.update_of_ne same]) moved
  | env => exact absurd rfl moved

/-- A run: any number of steps. -/
def Reaches (allowed : τ → S → Db → Prop) :
    Config τ S R ε Db α → Config τ S R ε Db α → Prop :=
  Relation.ReflTransGen (M.Step allowed)

theorem Step.mono {M : Machine τ S R ε Db} {allowed allowed' : τ → S → Db → Prop}
    {c d : Config τ S R ε Db α} (h : M.Step allowed c d)
    (weaker : ∀ t s db, allowed t s db → allowed' t s db) : M.Step allowed' c d := by
  cases h with
  | exec running ok executed => exact .exec running (weaker _ _ _ ok) executed
  | fault e running may => exact .fault e running may
  | crash running => exact .crash running
  | env moved => exact .env moved

theorem Reaches.mono {M : Machine τ S R ε Db} {allowed allowed' : τ → S → Db → Prop}
    {c d : Config τ S R ε Db α} (h : M.Reaches allowed c d)
    (weaker : ∀ t s db, allowed t s db → allowed' t s db) : M.Reaches allowed' c d := by
  induction h with
  | refl => exact .refl
  | tail _ step ih => exact ih.tail (step.mono weaker)

/-- Execute the next statement of client `t`, if it passes the check. -/
def next (check : τ → S → Db → Bool) (t : τ) (c : Config τ S R ε Db α) :
    Option (Config τ S R ε Db α) :=
  match c.run t with
  | some (.call s k) =>
      if check t s c.db then
        (M.exec t s c.db).map fun out => ⟨out.2, Function.update c.run t (some (k out.1))⟩
      else none
  | _ => none

/-- Execute a schedule: the listed clients take one statement each, in order. -/
def play (check : τ → S → Db → Bool) :
    List τ → Config τ S R ε Db α → Option (Config τ S R ε Db α)
  | [], c => some c
  | t :: ts, c => (M.next check t c).bind (play check ts)

theorem play_append {check : τ → S → Db → Bool} (ts us : List τ) (c : Config τ S R ε Db α) :
    M.play check (ts ++ us) c = (M.play check ts c).bind (M.play check us) := by
  induction ts generalizing c with
  | nil => rfl
  | cons t ts ih =>
      rw [List.cons_append, play, play, Option.bind_assoc]
      congr 1
      funext d
      exact ih d

theorem next_other {M : Machine τ S R ε Db} {check : τ → S → Db → Bool} {t u : τ}
    {c c' : Config τ S R ε Db α} (h : M.next check t c = some c')
    (other : u ≠ t) : c'.run u = c.run u := by
  unfold next at h
  split at h
  · split at h
    · obtain ⟨out, -, rfl⟩ := Option.map_eq_some_iff.mp h
      exact Function.update_of_ne other _ _
    · cases h
  · cases h

section Play

variable {M} {check : τ → S → Db → Bool} {allowed : τ → S → Db → Prop}
  (checked : ∀ t s db, check t s db = true → allowed t s db)
include checked

theorem next_step {t : τ} {c c' : Config τ S R ε Db α} (h : M.next check t c = some c') :
    M.Step allowed c c' := by
  unfold next at h
  split at h
  · rename_i s k running
    split at h
    · rename_i passed
      obtain ⟨out, executed, rfl⟩ := Option.map_eq_some_iff.mp h
      exact .exec running (checked t s c.db passed) executed
    · cases h
  · cases h

/-- A schedule that plays to its end is a run. -/
theorem play_reaches {ts : List τ} {c c' : Config τ S R ε Db α} (h : M.play check ts c = some c') :
    M.Reaches allowed c c' := by
  induction ts generalizing c with
  | nil =>
      cases h
      exact .refl
  | cons t ts ih =>
      obtain ⟨middle, first, rest⟩ := Option.bind_eq_some_iff.mp h
      exact .head (next_step checked first) (ih rest)

/-- What a played schedule shows of its last configuration holds at the end of a run. -/
theorem run_of_play {β : Type} {ts : List τ} {c : Config τ S R ε Db α}
    {look : Config τ S R ε Db α → β} {seen : β} (h : (M.play check ts c).map look = some seen) :
    ∃ d, M.Reaches allowed c d ∧ look d = seen := by
  obtain ⟨d, played, rfl⟩ := Option.map_eq_some_iff.mp h
  exact ⟨d, play_reaches checked played, rfl⟩

/-- Two schedules with a step of the environment between them, looked at before the last
    step and after it. -/
theorem step_of_play_env {β : Type} {ts us : List τ} {t : τ} {c : Config τ S R ε Db α}
    {tick : Db → Db} (moves : ∀ db, M.env db (tick db)) {look : Config τ S R ε Db α → β}
    {before after : β}
    (first : (((M.play check ts c).map fun d => ⟨tick d.db, d.run⟩).bind
      (M.play check us)).map look = some before)
    (whole : (((M.play check ts c).map fun d => ⟨tick d.db, d.run⟩).bind
      (M.play check (us ++ [t]))).map look = some after) :
    ∃ d e, M.Reaches allowed c d ∧ M.Step allowed d e ∧ look d = before ∧ look e = after := by
  obtain ⟨d, played, rfl⟩ := Option.map_eq_some_iff.mp first
  obtain ⟨ticked, is, rest⟩ := Option.bind_eq_some_iff.mp played
  rw [is, Option.bind_some, play_append, rest, Option.bind_some] at whole
  obtain ⟨e, last, rfl⟩ := Option.map_eq_some_iff.mp whole
  obtain ⟨e', next, same⟩ := Option.bind_eq_some_iff.mp last
  cases same
  obtain ⟨b, start, rfl⟩ := Option.map_eq_some_iff.mp is
  exact ⟨d, e, ((play_reaches checked start).tail (.env (moves b.db))).trans
    (play_reaches checked rest), next_step checked next, rfl, rfl⟩

/-- A played schedule, looked at on the way and at its end. -/
theorem runs_of_play {β : Type} {ts us : List τ} {c : Config τ S R ε Db α}
    {look : Config τ S R ε Db α → β} {onTheWay seen : β}
    (first : (M.play check ts c).map look = some onTheWay)
    (whole : (M.play check (ts ++ us) c).map look = some seen) :
    ∃ d e, M.Reaches allowed c d ∧ M.Reaches allowed d e ∧ look d = onTheWay ∧ look e = seen := by
  obtain ⟨d, played, rfl⟩ := Option.map_eq_some_iff.mp first
  rw [play_append, played, Option.bind_some] at whole
  obtain ⟨e, further, rfl⟩ := Option.map_eq_some_iff.mp whole
  exact ⟨d, e, play_reaches checked played, play_reaches checked further, rfl, rfl⟩

end Play

/-! ### One client alone -/

/-- Run a program with nobody else moving; `none` if it would have to wait. -/
def solo (t : τ) : Prog S R ε α → Db → Option (Except ε α × Db)
  | .done r, db => some (r, db)
  | .call s k, db => (M.exec t s db).bind fun out => solo t (k out.1) out.2

variable {M}

theorem solo_bind (t : τ) (p : Prog S R ε α) (f : α → Prog S R ε β) (db : Db) :
    M.solo t (p >>= f) db = (M.solo t p db).bind fun out => match out.1 with
      | .ok a => M.solo t (f a) out.2
      | .error e => some (.error e, out.2) := by
  induction p generalizing db with
  | done r => cases r <;> rfl
  | call s k ih => simp only [Prog.call_bind, solo, ih, Option.bind_assoc]

theorem solo_bind_ok {t : τ} {p : Prog S R ε α} {f : α → Prog S R ε β} {db db' : Db} {a : α}
    (h : M.solo t p db = some (.ok a, db')) : M.solo t (p >>= f) db = M.solo t (f a) db' := by
  simp [solo_bind, h]

theorem solo_bind_error {t : τ} {p : Prog S R ε α} {f : α → Prog S R ε β} {db db' : Db} {e : ε}
    (h : M.solo t p db = some (.error e, db')) :
    M.solo t (p >>= f) db = some (.error e, db') := by
  simp [solo_bind, h]

theorem solo_attempt (t : τ) (p : Prog S R ε α) (db : Db) :
    M.solo t p.attempt db = (M.solo t p db).map fun out => (.ok out.1, out.2) := by
  induction p generalizing db with
  | done r => rfl
  | call s k ih => simp only [Prog.attempt, solo, ih, Option.map_bind, Function.comp_def]

theorem solo_stmt {t : τ} {s : S} {db : Db} {out : Except ε (R s) × Db}
    (h : M.exec t s db = some out) : M.solo t (Prog.stmt s) db = some out := by
  simp [solo, Prog.stmt, h]

theorem solo_raiseIf_passed {t : τ} {cond : Prop} [Decidable cond] {e : ε} {db : Db} (h : ¬cond) :
    M.solo t (Prog.raiseIf cond e) db = some (.ok (), db) := by
  rw [Prog.raiseIf, if_neg h]
  rfl

theorem solo_raiseIf_raised {t : τ} {cond : Prop} [Decidable cond] {e : ε} {db : Db} (h : cond) :
    M.solo t (Prog.raiseIf cond e) db = some (.error e, db) := by
  rw [Prog.raiseIf, if_pos h]
  rfl

/-- A transaction whose body raises ends with the rollback. -/
theorem solo_transaction_error {t : τ} {commit rollback : S} {body : Prog S R ε α} {e : ε}
    {db db' db'' : Db} {x : R rollback} (h : M.solo t body db = some (.error e, db'))
    (rolls : M.exec t rollback db' = some (.ok x, db'')) :
    M.solo t (Prog.transaction commit rollback body) db = some (.error e, db'') := by
  simp only [Prog.transaction, Prog.handle]
  rw [solo_bind, solo_attempt, solo_bind_error h]
  simp only [Option.map_some, Option.bind_some, Prog.stmt, Prog.call_bind, solo, rolls]
  rfl

end Machine

/-- The terms on which clients share a store: an invariant, what a step of client
    `t` guarantees, what `t` relies on the others for, which statements may be
    executed at all, and what `t` has to show before it issues a statement. -/
structure Contract (τ S Db : Type) where
  inv : Db → Prop
  guar : τ → Db → Db → Prop
  rely : τ → Db → Db → Prop
  allowed : τ → S → Db → Prop := fun _ _ _ => True
  shows : τ → S → Db → Prop := fun _ _ _ => True

variable (M : Machine τ S R ε Db) (C : Contract τ S Db)

/-- The weakest precondition of a program of client `t`: before each statement the
    others may have moved the store along `rely`; the statement keeps the invariant
    and the guarantee; in the end `Q` holds of the result and the store. -/
def wp (t : τ) : Prog S R ε α → (Except ε α → Db → Prop) → Db → Prop
  | .done r, Q, db => Q r db
  | .call s k, Q, db =>
      ∀ db', C.rely t db db' → C.inv db' → C.shows t s db' ∧
        (∀ r db'', C.allowed t s db' → M.exec t s db' = some (r, db'') →
          C.inv db'' ∧ C.guar t db' db'' ∧ wp t (k r) Q db'') ∧
        (M.fallible s → ∀ e, wp t (k (.error e)) Q db')

/-- The laws that make a contract usable: `rely` is a preorder that the guarantees
    of the others and the environment keep, and a crash keeps the contract. -/
structure Contract.Sound : Prop where
  rely_refl : ∀ t db, C.rely t db db
  rely_trans : ∀ t {a b c}, C.rely t a b → C.rely t b c → C.rely t a c
  guar_rely : ∀ {t t' db db'}, t' ≠ t → C.inv db → C.inv db' → C.guar t db db' → C.rely t' db db'
  env_inv : ∀ {db db'}, C.inv db → M.env db db' → C.inv db'
  env_rely : ∀ {t db db'}, C.inv db → M.env db db' → C.rely t db db'
  crash_inv : ∀ {t db}, C.inv db → C.inv (M.crash t db)
  crash_guar : ∀ {t db}, C.inv db → C.guar t db (M.crash t db)

section Rules

variable {M C} {t : τ} {db : Db}

@[simp] theorem wp_done (r : Except ε α) (Q : Except ε α → Db → Prop) :
    wp M C t (.done r) Q db = Q r db := rfl

@[simp] theorem wp_pure (a : α) (Q : Except ε α → Db → Prop) :
    wp M C t (pure a) Q db = Q (.ok a) db := rfl

@[simp] theorem wp_raise (e : ε) (Q : Except ε α → Db → Prop) :
    wp M C t (Prog.raise e) Q db = Q (.error e) db := rfl

/-- Consequence: a weaker postcondition is easier to reach. -/
theorem wp_mono {p : Prog S R ε α} {Q Q' : Except ε α → Db → Prop}
    (weaker : ∀ r db, Q r db → Q' r db) (h : wp M C t p Q db) : wp M C t p Q' db := by
  induction p generalizing db with
  | done r => exact weaker r db h
  | call s k ih =>
      intro db' moved holds
      obtain ⟨shown, runs, fails⟩ := h db' moved holds
      refine ⟨shown, fun r db'' ok executed => ?_, fun may e => ih _ (fails may e)⟩
      obtain ⟨kept, promised, rest⟩ := runs r db'' ok executed
      exact ⟨kept, promised, ih _ rest⟩

/-- Sequencing: the second program starts where the first one ends. -/
theorem wp_bind {p : Prog S R ε α} {f : α → Prog S R ε β} {Q : Except ε β → Db → Prop}
    (h : wp M C t p (fun r db => match r with
      | .ok a => wp M C t (f a) Q db
      | .error e => Q (.error e) db) db) :
    wp M C t (p >>= f) Q db := by
  induction p generalizing db with
  | done r => cases r <;> exact h
  | call s k ih =>
      intro db' moved holds
      obtain ⟨shown, runs, fails⟩ := h db' moved holds
      refine ⟨shown, fun r db'' ok executed => ?_, fun may e => ih _ (fails may e)⟩
      obtain ⟨kept, promised, rest⟩ := runs r db'' ok executed
      exact ⟨kept, promised, ih _ rest⟩

/-- Sequencing where the first part leaves the same assertion however it ends. -/
theorem wp_bind_always {p : Prog S R ε α} {f : α → Prog S R ε β} {A : Db → Prop}
    {Q : Except ε β → Db → Prop} (first : wp M C t p (fun _ => A) db)
    (rest : ∀ a db, A db → wp M C t (f a) Q db) (ends : ∀ e db, A db → Q (.error e) db) :
    wp M C t (p >>= f) Q db := by
  refine wp_bind (wp_mono ?_ first)
  intro r db' held
  cases r with
  | ok a => exact rest a db' held
  | error e => exact ends e db' held

theorem wp_attempt {p : Prog S R ε α} {Q : Except ε (Except ε α) → Db → Prop}
    (h : wp M C t p (fun r db => Q (.ok r) db) db) : wp M C t p.attempt Q db := by
  induction p generalizing db with
  | done r => exact h
  | call s k ih =>
      intro db' moved holds
      obtain ⟨shown, runs, fails⟩ := h db' moved holds
      refine ⟨shown, fun r db'' ok executed => ?_, fun may e => ih _ (fails may e)⟩
      obtain ⟨kept, promised, rest⟩ := runs r db'' ok executed
      exact ⟨kept, promised, ih _ rest⟩

/-- A handler runs where the exception was raised. -/
theorem wp_handle {p : Prog S R ε α} {f : ε → Prog S R ε α} {Q : Except ε α → Db → Prop}
    (h : wp M C t p (fun r db => match r with
      | .ok a => Q (.ok a) db
      | .error e => wp M C t (f e) Q db) db) :
    wp M C t (p.handle f) Q db := by
  apply wp_bind
  apply wp_attempt
  refine wp_mono ?_ h
  intro r db held
  cases r <;> exact held

/-- One statement: look at the store the others left, then at its effect. -/
theorem wp_stmt {s : S} {Q : Except ε (R s) → Db → Prop}
    (h : ∀ db', C.rely t db db' → C.inv db' → C.shows t s db' ∧
      (∀ r db'', C.allowed t s db' → M.exec t s db' = some (r, db'') →
        C.inv db'' ∧ C.guar t db' db'' ∧ Q r db'') ∧
      (M.fallible s → ∀ e, Q (.error e) db')) :
    wp M C t (Prog.stmt s) Q db := h

/-- An assertion of `t` that the steps of the others cannot break. -/
def Contract.Stable (C : Contract τ S Db) (t : τ) (A : Db → Prop) : Prop :=
  ∀ db db', A db → C.rely t db db' → C.inv db' → A db'

theorem Contract.Stable.and {A B : Db → Prop} (first : C.Stable t A) (second : C.Stable t B) :
    C.Stable t fun db => A db ∧ B db :=
  fun db db' held moved holds =>
    ⟨first db db' held.1 moved holds, second db db' held.2 moved holds⟩

/-- From a store with `A`, every normal end of `p` leaves a store with `B`. An exception
    leaves nothing to show: it ends in a rollback. -/
def Triple (M : Machine τ S R ε Db) (C : Contract τ S Db) (t : τ) (A : Db → Prop)
    (p : Prog S R ε α) (B : α → Db → Prop) : Prop :=
  ∀ db, A db → wp M C t p (fun r db' => ∀ a, r = .ok a → B a db') db

theorem Triple.pure {A : Db → Prop} {B : α → Db → Prop} {a : α} (h : ∀ db, A db → B a db) :
    Triple M C t A (Pure.pure a) B := by
  intro db start b same
  cases same
  exact h db start

theorem Triple.raise {A : Db → Prop} {B : α → Db → Prop} {e : ε} :
    Triple M C t A (Prog.raise e) B := by
  intro db start b same
  cases same

theorem Triple.weaken {A A' : Db → Prop} {B B' : α → Db → Prop} {p : Prog S R ε α}
    (h : Triple M C t A p B) (pre : ∀ db, A' db → A db) (post : ∀ a db, B a db → B' a db) :
    Triple M C t A' p B' :=
  fun db start => wp_mono (fun _ db' held a same => post a db' (held a same)) (h db (pre db start))

theorem Triple.bind {A : Db → Prop} {B : α → Db → Prop} {D : β → Db → Prop} {p : Prog S R ε α}
    {f : α → Prog S R ε β} (first : Triple M C t A p B)
    (rest : ∀ a, Triple M C t (B a) (f a) D) : Triple M C t A (p >>= f) D := by
  intro db start
  refine wp_bind (wp_mono ?_ (first db start))
  intro r db' held
  cases r with
  | ok a => exact rest a db' (held a rfl)
  | error e => exact nofun

theorem Triple.stmt {A : Db → Prop} {s : S} {B : R s → Db → Prop} (stable : C.Stable t A)
    (shown : ∀ db, A db → C.inv db → C.shows t s db)
    (h : ∀ db r db', A db → C.inv db → C.allowed t s db → M.exec t s db = some (r, db') →
      C.inv db' ∧ C.guar t db db' ∧ ∀ a, r = .ok a → B a db') :
    Triple M C t A (Prog.stmt s) B := by
  intro db start
  refine wp_stmt fun db' moved holds => ?_
  have here := stable db db' start moved holds
  exact ⟨shown db' here holds, fun r db'' ok executed => h db' r db'' here holds ok executed,
    fun _ e => nofun⟩

/-- What a body shows when it ends normally is there for whoever looks at how it ended. -/
theorem Triple.attempt {A : Db → Prop} {B : α → Db → Prop} {p : Prog S R ε α}
    (h : Triple M C t A p B) :
    Triple M C t A p.attempt fun r db => ∀ a, r = .ok a → B a db := by
  intro db start
  refine wp_attempt (wp_mono ?_ (h db start))
  intro r db' held r' same
  cases same
  exact held

/-- A variable that only the assertions mention. -/
theorem Triple.exists {A : γ → Db → Prop} {B : α → Db → Prop} {p : Prog S R ε α}
    (h : ∀ x, Triple M C t (A x) p B) : Triple M C t (fun db => ∃ x, A x db) p B := by
  rintro db ⟨x, start⟩
  exact h x db start

/-- A fact that does not depend on the store. -/
theorem Triple.assume {A : Db → Prop} {B : α → Db → Prop} {fact : Prop} {p : Prog S R ε α}
    (h : fact → Triple M C t A p B) : Triple M C t (fun db => A db ∧ fact) p B := by
  rintro db ⟨start, known⟩
  exact h known db start

/-- A handler that ends with an exception itself shows nothing, as the body does not. -/
theorem Triple.handle_raise {A : Db → Prop} {B : α → Db → Prop} {p : Prog S R ε α}
    {f : ε → Prog S R ε α} (h : Triple M C t A p B) (raises : ∀ e, ∃ e', f e = Prog.raise e') :
    Triple M C t A (p.handle f) B := by
  intro db start
  refine wp_handle (wp_mono ?_ (h db start))
  intro r db' held
  cases r with
  | ok a => exact held
  | error e =>
      obtain ⟨e', is⟩ := raises e
      simp [is]

theorem Triple.raiseIf {A : Db → Prop} {cond : Prop} [Decidable cond] {e : ε} :
    Triple M C t A (Prog.raiseIf cond e) fun _ db => A db ∧ ¬cond := by
  unfold Prog.raiseIf
  split
  · exact .raise
  · rename_i fine
    exact .pure fun db held => ⟨held, fine⟩

theorem Triple.orRaise {A : Db → Prop} {value : Option α} {e : ε} :
    Triple M C t A (Prog.orRaise value e) fun a db => A db ∧ value = some a := by
  cases value with
  | none => exact .raise
  | some a => exact .pure fun db held => ⟨held, rfl⟩

/-- A program all of whose statements keep a stable assertion keeps it, however it ends. -/
theorem wp_of_only {A : Db → Prop} {P : S → Prop} (stable : C.Stable t A)
    (shown : ∀ s db, P s → A db → C.inv db → C.shows t s db)
    (keeps : ∀ s db r db', P s → A db → C.inv db → C.allowed t s db →
      M.exec t s db = some (r, db') → C.inv db' ∧ C.guar t db db' ∧ A db')
    {p : Prog S R ε α} (only : p.Only P) (start : A db) : wp M C t p (fun _ => A) db := by
  induction p generalizing db with
  | done r => exact start
  | call s k ih =>
      intro db' moved holds
      have here := stable db db' start moved holds
      refine ⟨shown s db' only.1 here holds, fun r db'' ok executed => ?_,
        fun _ e => ih _ (only.2 _) here⟩
      obtain ⟨kept, promised, still⟩ := keeps s db' r db'' only.1 here holds ok executed
      exact ⟨kept, promised, ih r (only.2 r) still⟩

theorem Triple.forEach {xs : List β} {f : β → Prog S R ε Unit} {A : Db → Prop}
    (round : ∀ x ∈ xs, Triple M C t A (f x) fun _ => A) :
    Triple M C t A (Prog.forEach xs f) fun _ => A := by
  induction xs with
  | nil => exact .pure fun _ held => held
  | cons x rest ih =>
      exact (round x (by simp)).bind fun _ => ih fun y member => round y (by simp [member])

/-- A loop whose assertion speaks about the elements that are left. -/
theorem Triple.forEach_rest {xs : List β} {f : β → Prog S R ε Unit} {A : List β → Db → Prop}
    (round : ∀ x rest, Triple M C t (A (x :: rest)) (f x) fun _ => A rest) :
    Triple M C t (A xs) (Prog.forEach xs f) fun _ => A [] := by
  induction xs with
  | nil => exact .pure fun _ held => held
  | cons x rest ih => exact (round x rest).bind fun _ => ih

/-- A loop that collects answers up to a limit: the assertion speaks about the answers so
    far and the elements that are left. -/
theorem Triple.collectUpTo {limit : Nat} {xs : List β} {f : β → Prog S R ε (Option γ)}
    {A : List γ → List β → Db → Prop}
    (round : ∀ acc x rest, Triple M C t (A acc (x :: rest)) (f x) fun y => A (acc ++ y.toList) rest)
    (acc : List γ) :
    Triple M C t (A acc xs) (Prog.collectUpTo limit xs f) fun ys db =>
      ∃ rest, A (acc ++ ys) rest db := by
  induction xs generalizing acc limit with
  | nil => exact .pure fun db held => ⟨[], by simpa using held⟩
  | cons x rest ih =>
      unfold Prog.collectUpTo
      split
      · exact .pure fun db held => ⟨x :: rest, by simpa using held⟩
      · refine (round acc x rest).bind fun y => (ih _).bind fun ys => ?_
        exact .pure fun db held => by simpa using held

/-- A loop that collects answers: the assertion also speaks about the answers so far. -/
theorem Triple.collect {xs : List β} {f : β → Prog S R ε (Option γ)} {A : List γ → Db → Prop}
    (round : ∀ x ∈ xs, ∀ acc, Triple M C t (A acc) (f x) fun y => A (acc ++ y.toList))
    (acc : List γ) :
    Triple M C t (A acc) (Prog.collect xs f) fun ys => A (acc ++ ys) := by
  induction xs generalizing acc with
  | nil => exact .pure fun db held => by simpa using held
  | cons x rest ih =>
      refine (round x (by simp) acc).bind fun y => ?_
      refine (ih (fun z member => round z (by simp [member])) _).bind fun ys => ?_
      exact .pure fun db held => by simpa using held

/-- `async with session.begin()`: a body that ends normally must leave the store ready
    for the commit; whatever else happens, the rollback is always allowed. -/
theorem wp_transaction {commit rollback : S} {body : Prog S R ε α} {A : Db → Prop}
    {Ready : α → Db → Prop} {Q : Except ε α → Db → Prop}
    (run : Triple M C t A body Ready)
    (ready : ∀ a, C.Stable t (Ready a))
    (shown : ∀ a db, Ready a db → C.inv db → C.shows t commit db)
    (commits : ∀ a db r db', Ready a db → C.inv db → C.allowed t commit db →
      M.exec t commit db = some (r, db') →
      C.inv db' ∧ C.guar t db db' ∧ ∀ x, r = .ok x → Q (.ok a) db')
    (free : ∀ db, C.inv db → C.shows t rollback db)
    (rolls : ∀ e db r db', C.inv db → M.exec t rollback db = some (r, db') →
      (∃ x, r = .ok x) ∧ C.inv db' ∧ C.guar t db db' ∧ Q (.error e) db')
    (certain : ¬M.fallible rollback)
    (db : Db) (start : A db) : wp M C t (Prog.transaction commit rollback body) Q db := by
  have undo : ∀ e db,
      wp M C t (Prog.stmt rollback >>= fun _ => (Prog.raise e : Prog S R ε α)) Q db := by
    intro e db
    apply wp_bind
    refine wp_stmt fun db' _ holds =>
      ⟨free db' holds, fun r db'' _ executed => ?_, fun may => absurd may certain⟩
    obtain ⟨⟨x, rfl⟩, kept, promised, ends⟩ := rolls e db' r db'' holds executed
    exact ⟨kept, promised, ends⟩
  apply wp_handle
  apply wp_bind
  refine wp_mono ?_ (run db start)
  intro r middle held
  cases r with
  | error e => exact undo e middle
  | ok a =>
      apply wp_bind
      refine wp_stmt fun before moved holds => ?_
      have here := ready a middle before (held a rfl) moved holds
      refine ⟨shown a before here holds, fun r after ok executed => ?_, fun _ e => undo e before⟩
      obtain ⟨kept, promised, ends⟩ := commits a before r after here holds ok executed
      cases r with
      | ok x => exact ⟨kept, promised, ends x rfl⟩
      | error e => exact ⟨kept, promised, undo e after⟩

end Rules

namespace Contract.Sound

variable {M C} [DecidableEq τ] (sound : C.Sound M)
include sound

/-- Every client that still has to run is at a point where its `wp` holds. -/
def Safe (M : Machine τ S R ε Db) (C : Contract τ S Db) (Q : τ → Except ε α → Db → Prop)
    (c : Config τ S R ε Db α) : Prop :=
  C.inv c.db ∧ ∀ t s k, c.run t = some (.call s k) → wp M C t (.call s k) (Q t) c.db

/-- The precondition of a client that still has to run survives the steps of the others. -/
theorem wp_call_stable {t : τ} {s : S} {k : Except ε (R s) → Prog S R ε α}
    {Q : Except ε α → Db → Prop} {db db' : Db} (h : wp M C t (.call s k) Q db)
    (moved : C.rely t db db') : wp M C t (.call s k) Q db' :=
  fun db'' further kept => h db'' (sound.rely_trans t moved further) kept

theorem others {Q : τ → Except ε α → Db → Prop} {c : Config τ S R ε Db α} (safe : Safe M C Q c)
    {t : τ} {db' : Db} (kept : C.inv db') (promised : C.guar t c.db db')
    (rest : Option (Prog S R ε α)) (own : ∀ p, rest = some p → wp M C t p (Q t) db') :
    Safe M C Q ⟨db', Function.update c.run t rest⟩ := by
  refine ⟨kept, fun u s k running => ?_⟩
  by_cases same : u = t
  · subst same
    exact own _ (by simpa using running)
  · have before : c.run u = some (.call s k) := by simpa [Function.update_of_ne same] using running
    exact wp_call_stable sound (safe.2 u s k before) (sound.guar_rely same safe.1 kept promised)

/-- One step keeps every client safe. -/
theorem step {Q : τ → Except ε α → Db → Prop} {c c' : Config τ S R ε Db α} (safe : Safe M C Q c)
    (moves : M.Step C.allowed c c') : Safe M C Q c' := by
  cases moves with
  | @exec t s k r db' running ok executed =>
      have here := safe.2 t s k running
      obtain ⟨kept, promised, rest⟩ :=
        (here c.db (sound.rely_refl t c.db) safe.1).2.1 r db' ok executed
      exact others sound safe kept promised _ fun p same => by cases same; exact rest
  | @fault t s k e running may =>
      have here := safe.2 t s k running
      have rest := (here c.db (sound.rely_refl t c.db) safe.1).2.2 may e
      refine ⟨safe.1, fun u s' k' after => ?_⟩
      by_cases same : u = t
      · subst same
        have : k (.error e) = .call s' k' := by simpa using after
        exact this ▸ rest
      · exact safe.2 u s' k' (by simpa [Function.update_of_ne same] using after)
  | @crash t s k running =>
      exact others sound safe (sound.crash_inv safe.1) (sound.crash_guar safe.1) none nofun
  | @env db' moved =>
      exact ⟨sound.env_inv safe.1 moved, fun u s k running =>
        wp_call_stable sound (safe.2 u s k running) (sound.env_rely safe.1 moved)⟩

/-- The invariant rule: clients that start safe stay safe along every run. -/
theorem invariant {Q : τ → Except ε α → Db → Prop} {c c' : Config τ S R ε Db α}
    (safe : Safe M C Q c) (run : M.Reaches C.allowed c c') : Safe M C Q c' := by
  induction run with
  | refl => exact safe
  | tail _ moves ih => exact step sound ih moves

/-- The guarantee rule: a step from a safe configuration is a guaranteed step of some
    client, a step of the environment, or leaves the store alone. -/
theorem guarantee {Q : τ → Except ε α → Db → Prop}
    {c c' : Config τ S R ε Db α} (safe : Safe M C Q c) (moves : M.Step C.allowed c c') :
    (∃ t, C.guar t c.db c'.db) ∨ M.env c.db c'.db ∨ c'.db = c.db := by
  cases moves with
  | @exec t s k r db' running ok executed =>
      have here := safe.2 t s k running
      exact .inl ⟨t, ((here c.db (sound.rely_refl t c.db) safe.1).2.1 r db' ok executed).2.1⟩
  | fault => exact .inr (.inr rfl)
  | @crash t s k running => exact .inl ⟨t, sound.crash_guar safe.1⟩
  | env moved => exact .inr (.inl moved)

/-- A client that ends in this step ends with its postcondition. -/
theorem ends {Q : τ → Except ε α → Db → Prop} {c d : Config τ S R ε Db α} (safe : Safe M C Q c)
    (moves : M.Step C.allowed c d) {t : τ} {s : S} {k : Except ε (R s) → Prog S R ε α}
    {r : Except ε α} (running : c.run t = some (.call s k)) (ended : d.result t = some r) :
    Q t r d.db := by
  have last := Config.run_of_result ended
  have here := safe.2 t s k running c.db (sound.rely_refl t c.db) safe.1
  rcases moves.of_moved running (by simp [last, running]) with
    ⟨r', ok, executed, next⟩ | ⟨e, may, same, next⟩ | ⟨-, next⟩
  · have done : k r' = .done r := Option.some.inj (next.symm.trans last)
    simpa [done] using (here.2.1 r' d.db ok executed).2.2
  · have done : k (.error e) = .done r := Option.some.inj (next.symm.trans last)
    simpa [done, same] using here.2.2 may e
  · cases next.symm.trans last

/-- What the client that is about to issue a statement has shown. -/
theorem shown {Q : τ → Except ε α → Db → Prop} {c : Config τ S R ε Db α} (safe : Safe M C Q c)
    {t : τ} {s : S} {k : Except ε (R s) → Prog S R ε α} (running : c.run t = some (.call s k)) :
    C.shows t s c.db :=
  (safe.2 t s k running c.db (sound.rely_refl t c.db) safe.1).1

/-- A preorder that every guarantee and the environment keep holds along a run. -/
theorem reaches_rel {Q : τ → Except ε α → Db → Prop} {P : Db → Db → Prop}
    (refl : ∀ db, P db db) (trans : ∀ {a b c}, P a b → P b c → P a c)
    (steps : ∀ {t db db'}, C.guar t db db' → P db db')
    (envs : ∀ {db db'}, C.inv db → M.env db db' → P db db')
    {c c' : Config τ S R ε Db α} (safe : Safe M C Q c) (run : M.Reaches C.allowed c c') :
    P c.db c'.db := by
  induction run with
  | refl => exact refl _
  | @tail middle last before moves ih =>
      have here := invariant sound safe before
      refine trans ih ?_
      rcases guarantee sound here moves with ⟨t, promised⟩ | moved | same
      · exact steps promised
      · exact envs here.1 moved
      · exact same ▸ refl _

end Contract.Sound

end SaasTemplate.Isolation
