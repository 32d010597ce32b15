import SaasTemplate.Isolation.RelyGuarantee

/-! # Programs that run alone

`Ensures` is the weakest liberal precondition of a program that one client runs from its
start to a normal end while nobody else moves.
-/

set_option linter.unusedSectionVars false

namespace SaasTemplate.Isolation

namespace Machine

variable {τ S : Type} [DecidableEq τ] {R : S → Type} {ε Db α β γ : Type} {M : Machine τ S R ε Db}
  {t : τ} {db : Db}

variable (M) in
/-- If `t` alone runs `p` to a normal end, then `Q` holds of the result and the store. -/
def Ensures (t : τ) (p : Prog S R ε α) (Q : α → Db → Prop) (db : Db) : Prop :=
  ∀ a db', M.solo t p db = some (.ok a, db') → Q a db'

theorem ensures_pure {a : α} {Q : α → Db → Prop} (h : Q a db) :
    M.Ensures t (pure a) Q db := by
  intro b db' ends
  cases ends
  exact h

theorem ensures_raise {e : ε} {Q : α → Db → Prop} : M.Ensures t (Prog.raise e) Q db := by
  intro b db' ends
  cases ends

theorem ensures_bind {p : Prog S R ε α} {f : α → Prog S R ε β} {Q : β → Db → Prop}
    (h : M.Ensures t p (fun a => M.Ensures t (f a) Q) db) : M.Ensures t (p >>= f) Q db := by
  intro b db' ends
  rw [solo_bind] at ends
  obtain ⟨⟨r, middle⟩, first, rest⟩ := Option.bind_eq_some_iff.mp ends
  cases r with
  | ok a => exact h a middle first b db' rest
  | error e => cases rest

theorem ensures_stmt {s : S} {Q : R s → Db → Prop}
    (h : ∀ a db', M.exec t s db = some (.ok a, db') → Q a db') :
    M.Ensures t (Prog.stmt s) Q db := by
  intro a db' ends
  obtain ⟨⟨r, after⟩, executed, done⟩ := Option.bind_eq_some_iff.mp ends
  cases done
  exact h a _ executed

theorem Ensures.mono {p : Prog S R ε α} {Q Q' : α → Db → Prop} (h : M.Ensures t p Q db)
    (weaker : ∀ a db', Q a db' → Q' a db') : M.Ensures t p Q' db :=
  fun a after ends => weaker a after (h a after ends)

/-- Sequencing, where the first program is known by what it ensures. -/
theorem Ensures.bind {p : Prog S R ε α} {f : α → Prog S R ε β} {Q : α → Db → Prop}
    {Q' : β → Db → Prop} (first : M.Ensures t p Q db)
    (rest : ∀ a db', Q a db' → M.Ensures t (f a) Q' db') : M.Ensures t (p >>= f) Q' db :=
  ensures_bind (first.mono rest)

theorem ensures_raiseIf {cond : Prop} [Decidable cond] {e : ε} {Q : Unit → Db → Prop}
    (h : ¬cond → Q () db) : M.Ensures t (Prog.raiseIf cond e) Q db := by
  unfold Prog.raiseIf
  split
  · exact ensures_raise
  · rename_i fine
    exact ensures_pure (h fine)

theorem ensures_orRaise {value : Option α} {e : ε} {Q : α → Db → Prop}
    (h : ∀ a, value = some a → Q a db) : M.Ensures t (Prog.orRaise value e) Q db := by
  cases value with
  | none => exact ensures_raise
  | some a => exact ensures_pure (h a rfl)

/-- What all statements of a program keep, the program keeps. -/
theorem ensures_only {P : S → Prop} {A : Db → Prop} {p : Prog S R ε α} (only : p.Only P)
    (keeps : ∀ s db r db', P s → A db → M.exec t s db = some (r, db') → A db') (start : A db) :
    M.Ensures t p (fun _ => A) db := by
  induction p generalizing db with
  | done r =>
      intro a db' ends
      cases ends
      exact start
  | call s k ih =>
      intro a db' ends
      obtain ⟨⟨r, middle⟩, executed, rest⟩ := Option.bind_eq_some_iff.mp ends
      exact ih r (only.2 r) (keeps s db r middle only.1 start executed) a db' rest

/-- `try ... except` whose handler raises. -/
theorem ensures_handle {p : Prog S R ε α} {f : ε → Prog S R ε α} {Q : α → Db → Prop}
    (h : M.Ensures t p Q db) (raises : ∀ e, ∃ e', f e = Prog.raise e') :
    M.Ensures t (p.handle f) Q db := by
  intro a db' ends
  unfold Prog.handle at ends
  rw [solo_bind, solo_attempt] at ends
  obtain ⟨⟨r, middle⟩, inner, rest⟩ := Option.bind_eq_some_iff.mp ends
  obtain ⟨⟨r', middle'⟩, inside, same⟩ := Option.map_eq_some_iff.mp inner
  cases same
  cases r' with
  | ok a =>
      cases rest
      exact h _ _ inside
  | error e =>
      obtain ⟨e', is⟩ := raises e
      simp only [is] at rest
      cases rest

/-- A loop whose invariant speaks about the elements that are left. -/
theorem ensures_forEach {xs : List β} {f : β → Prog S R ε Unit} {A : List β → Db → Prop}
    (round : ∀ x rest db, A (x :: rest) db → M.Ensures t (f x) (fun _ => A rest) db)
    (start : A xs db) : M.Ensures t (Prog.forEach xs f) (fun _ => A []) db := by
  induction xs generalizing db with
  | nil => exact ensures_pure start
  | cons x rest ih => exact (round x rest db start).bind fun _ _ held => ih held

/-- A loop over keys each of which is answered by its row: it returns the first `limit` rows. -/
theorem ensures_collectUpTo {limit : Nat} {rows : List γ} {key : γ → β}
    {f : β → Prog S R ε (Option γ)} {A : Db → Prop}
    (round : ∀ row ∈ rows, ∀ db, A db →
      M.Ensures t (f (key row)) (fun y db' => y = some row ∧ A db') db)
    (start : A db) : M.Ensures t (Prog.collectUpTo limit (rows.map key) f)
      (fun ys db' => ys = rows.take limit ∧ A db') db := by
  induction rows generalizing limit db with
  | nil => exact ensures_pure ⟨by simp, start⟩
  | cons row rest ih =>
      rw [List.map_cons, Prog.collectUpTo]
      split
      · rename_i done
        exact ensures_pure ⟨by simp [done], start⟩
      · rename_i more
        refine (round row (by simp) db start).bind fun y db' ⟨answer, held⟩ => ?_
        subst answer
        refine (ih (fun other member => round other (by simp [member])) held).bind
          fun ys db'' ⟨answers, held⟩ => ensures_pure ⟨?_, held⟩
        obtain ⟨n, rfl⟩ := Nat.exists_eq_succ_of_ne_zero more
        simpa using answers

/-- A transaction that commits. -/
theorem ensures_transaction {commit rollback : S} {body : Prog S R ε α} {Q : α → Db → Prop}
    (h : M.Ensures t body (fun a db' => ∀ u db'', M.exec t commit db' = some (.ok u, db'') →
      Q a db'') db) : M.Ensures t (Prog.transaction commit rollback body) Q db := by
  intro a db' ends
  unfold Prog.transaction Prog.handle at ends
  rw [solo_bind, solo_attempt] at ends
  obtain ⟨⟨r, after⟩, inner, rest⟩ := Option.bind_eq_some_iff.mp ends
  obtain ⟨⟨r', after'⟩, inside, same⟩ := Option.map_eq_some_iff.mp inner
  cases same
  cases r' with
  | error e =>
      obtain ⟨⟨u, undone⟩, -, raised⟩ := Option.bind_eq_some_iff.mp rest
      cases u <;> cases raised
  | ok a' =>
      cases rest
      refine ensures_bind (h.mono fun b middle committed => ?_) _ _ inside
      exact ensures_bind (ensures_stmt fun u last executed =>
        ensures_pure (committed u last executed))

/-- What a transaction block does, where commit and rollback always answer. -/
theorem solo_transaction {commit rollback : S} {body : Prog S R ε α} {ended undone : Db → Db}
    (commits : ∀ db, ∃ x, M.exec t commit db = some (.ok x, ended db))
    (rolls : ∀ db, ∃ x, M.exec t rollback db = some (.ok x, undone db)) :
    M.solo t (Prog.transaction commit rollback body) db = (M.solo t body db).map fun out =>
      (out.1, match out.1 with
        | .ok _ => ended out.2
        | .error _ => undone out.2) := by
  cases inner : M.solo t body db with
  | none => simp [Prog.transaction, Prog.handle, solo_bind, solo_attempt, inner]
  | some out =>
      obtain ⟨r, after⟩ := out
      cases r with
      | ok a =>
          obtain ⟨x, commits⟩ := commits after
          simp only [Prog.transaction, Prog.handle]
          rw [solo_bind, solo_attempt, solo_bind_ok inner, solo_bind_ok (solo_stmt commits)]
          rfl
      | error e =>
          obtain ⟨x, rolls⟩ := rolls after
          rw [solo_transaction_error inner rolls]
          rfl

end Machine

/-! ### Until a given statement -/

namespace Prog

variable {S : Type} {R : S → Type} {ε α β : Type} {stop : S} {P : S → Prop}

/-- Every statement that the program may issue before the first `stop` meets `P`. -/
def OnlyBefore (stop : S) (P : S → Prop) : Prog S R ε α → Prop
  | .done _ => True
  | .call s k => s = stop ∨ P s ∧ ∀ r, (k r).OnlyBefore stop P

theorem Only.before {p : Prog S R ε α} (h : p.Only P) : p.OnlyBefore stop P := by
  induction p with
  | done r => trivial
  | call s k ih => exact .inr ⟨h.1, fun r => ih r (h.2 r)⟩

theorem onlyBefore_stop {f : R stop → Prog S R ε α} : (stmt stop >>= f).OnlyBefore stop P :=
  .inl rfl

theorem onlyBefore_bind {p : Prog S R ε α} {f : α → Prog S R ε β} (first : p.Only P)
    (rest : ∀ a, (f a).OnlyBefore stop P) : (p >>= f).OnlyBefore stop P := by
  induction p with
  | done r =>
      cases r with
      | ok a => exact rest a
      | error e => trivial
  | call s k ih => exact .inr ⟨first.1, fun r => ih r (first.2 r)⟩

end Prog

end SaasTemplate.Isolation
