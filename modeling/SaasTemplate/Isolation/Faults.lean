import SaasTemplate.Isolation.Program

/-! # One program whose statements may fail

A `Device` carries out one statement after the other for a single client; a statement may
also fail, with an error and with leftovers of its own. `Always` is what holds however a
program ends.
-/

namespace SaasTemplate.Isolation

variable {S : Type} {R : S → Type} {ε Db α β : Type}

/-- What statements do, and how they may fail. -/
structure Device (S : Type) (R : S → Type) (ε Db : Type) where
  exec : (s : S) → Db → Except ε (R s) × Db
  fails : S → Db → ε → Db → Prop

namespace Device

variable (D : Device S R ε Db)

/-- The ends of a program. -/
inductive Ends : Prog S R ε α → Db → Except ε α → Db → Prop where
  | done (r : Except ε α) (db : Db) : Ends (.done r) db r db
  | exec {s k db r db'} : Ends (k (D.exec s db).1) (D.exec s db).2 r db' →
      Ends (.call s k) db r db'
  | fail {s k db e left r db'} : D.fails s db e left → Ends (k (.error e)) left r db' →
      Ends (.call s k) db r db'

/-- A run in which nothing fails. -/
def play : Prog S R ε α → Db → Except ε α × Db
  | .done r, db => (r, db)
  | .call s k, db => play (k (D.exec s db).1) (D.exec s db).2

theorem ends_play (p : Prog S R ε α) (db : Db) : D.Ends p db (D.play p db).1 (D.play p db).2 := by
  induction p generalizing db with
  | done r => exact .done r db
  | call s k ih => exact .exec (ih _ _)

/-- However the program ends, `Q` holds of the result and the store. -/
def Always (Q : Except ε α → Db → Prop) : Prog S R ε α → Db → Prop
  | .done r, db => Q r db
  | .call s k, db => Always Q (k (D.exec s db).1) (D.exec s db).2 ∧
      ∀ e left, D.fails s db e left → Always Q (k (.error e)) left

variable {D} {Q Q' : Except ε α → Db → Prop} {db : Db}

theorem Ends.always {p : Prog S R ε α} {r : Except ε α} {db' : Db} (ends : D.Ends p db r db')
    (h : D.Always Q p db) : Q r db' := by
  induction ends with
  | done r db => exact h
  | exec _ ih => exact ih h.1
  | fail may _ ih => exact ih (h.2 _ _ may)

@[simp] theorem always_pure (a : α) : D.Always Q (pure a) db ↔ Q (.ok a) db := Iff.rfl

@[simp] theorem always_raise (e : ε) : D.Always Q (Prog.raise e) db ↔ Q (.error e) db := Iff.rfl

theorem always_stmt {s : S} {Q : Except ε (R s) → Db → Prop} :
    D.Always Q (Prog.stmt s) db ↔ Q (D.exec s db).1 (D.exec s db).2 ∧
      ∀ e left, D.fails s db e left → Q (.error e) left := Iff.rfl

theorem always_mono {p : Prog S R ε α} (weaker : ∀ r db, Q r db → Q' r db)
    (h : D.Always Q p db) : D.Always Q' p db := by
  induction p generalizing db with
  | done r => exact weaker r db h
  | call s k ih => exact ⟨ih _ h.1, fun e left may => ih _ (h.2 e left may)⟩

/-- Sequencing: the second program starts where the first one ends. -/
theorem always_bind {p : Prog S R ε α} {f : α → Prog S R ε β} {Q : Except ε β → Db → Prop} :
    D.Always Q (p >>= f) db ↔ D.Always (fun r db => match r with
      | .ok a => D.Always Q (f a) db
      | .error e => Q (.error e) db) p db := by
  induction p generalizing db with
  | done r => cases r <;> exact Iff.rfl
  | call s k ih =>
      rw [Prog.call_bind, Always, Always]
      exact and_congr (ih _) (forall₃_congr fun _ _ _ => ih _)

theorem always_attempt {p : Prog S R ε α} {Q : Except ε (Except ε α) → Db → Prop} :
    D.Always Q p.attempt db ↔ D.Always (fun r => Q (.ok r)) p db := by
  induction p generalizing db with
  | done r => exact Iff.rfl
  | call s k ih => exact and_congr (ih _) (forall₃_congr fun _ _ _ => ih _)

theorem always_raiseIf {cond : Prop} [Decidable cond] {e : ε} {Q : Except ε Unit → Db → Prop} :
    D.Always Q (Prog.raiseIf cond e) db ↔ (cond → Q (.error e) db) ∧ (¬cond → Q (.ok ()) db) := by
  unfold Prog.raiseIf
  split <;> rename_i is <;> simp [is]

end Device

end SaasTemplate.Isolation
