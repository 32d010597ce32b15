import Mathlib.Logic.Function.Basic

/-! # Programs that talk to a shared store one statement at a time

A `Prog` is the code of one client: it ends with a result, or it issues a
statement and goes on with the answer. Between two statements of one client any
other client may run, so the tree of a program is exactly where interleaving can
happen. Statements and their answer types are a parameter; what a statement does
to the store is given separately by a `Machine`.
-/

namespace SaasTemplate.Isolation

instance instDecidableEqExcept {ε α : Type} [DecidableEq ε] [DecidableEq α] :
    DecidableEq (Except ε α)
  | .ok a, .ok b => decidable_of_iff (a = b) (by simp)
  | .error e, .error e' => decidable_of_iff (e = e') (by simp)
  | .ok _, .error _ => isFalse (by simp)
  | .error _, .ok _ => isFalse (by simp)

/-- A client program over statements `S` with answers `R`. A statement answers
    with a value or fails with an exception of type `ε`; the program sees both. -/
inductive Prog (S : Type) (R : S → Type) (ε : Type) (α : Type) where
  | done (result : Except ε α)
  | call (s : S) (k : Except ε (R s) → Prog S R ε α)

namespace Prog

variable {S : Type} {R : S → Type} {ε α β γ : Type}

/-- Sequencing: an exception of the first part skips the second. -/
def bind (p : Prog S R ε α) (f : α → Prog S R ε β) : Prog S R ε β :=
  match p with
  | .done (.ok a) => f a
  | .done (.error e) => .done (.error e)
  | .call s k => .call s fun r => (k r).bind f

instance : Monad (Prog S R ε) where
  pure a := .done (.ok a)
  bind := bind

/-- Stop with an exception. -/
def raise (e : ε) : Prog S R ε α := .done (.error e)

/-- Issue one statement and return its answer. -/
def stmt (s : S) : Prog S R ε (R s) := .call s .done

/-- Run a program to its end and return how it ended, never raising. -/
def attempt (p : Prog S R ε α) : Prog S R ε (Except ε α) :=
  match p with
  | .done r => .done (.ok r)
  | .call s k => .call s fun r => (k r).attempt

/-- `try ... except`: replace an exception by the handler's program. -/
def handle (p : Prog S R ε α) (h : ε → Prog S R ε α) : Prog S R ε α :=
  p.attempt >>= fun
    | .ok a => pure a
    | .error e => h e

/-- `if cond: raise e`. -/
def raiseIf (cond : Prop) [Decidable cond] (e : ε) : Prog S R ε Unit :=
  if cond then raise e else pure ()

/-- `if value is None: raise e`, going on with the value. -/
def orRaise (value : Option α) (e : ε) : Prog S R ε α :=
  match value with
  | some a => pure a
  | none => raise e

/-- Run a program for each element of a list, in order. -/
def forEach (xs : List β) (f : β → Prog S R ε Unit) : Prog S R ε Unit :=
  match xs with
  | [] => pure ()
  | x :: rest => f x >>= fun _ => forEach rest f

/-- Run a program for each element of a list and keep the answers that are there. -/
def collect (xs : List β) (f : β → Prog S R ε (Option γ)) : Prog S R ε (List γ) :=
  match xs with
  | [] => pure []
  | x :: rest => f x >>= fun y => collect rest f >>= fun ys => pure (y.toList ++ ys)

/-- The same until `limit` answers are there. -/
def collectUpTo (limit : Nat) (xs : List β) (f : β → Prog S R ε (Option γ)) :
    Prog S R ε (List γ) :=
  match xs with
  | [] => pure []
  | x :: rest =>
      if limit = 0 then pure []
      else f x >>= fun y => collectUpTo (limit - y.toList.length) rest f >>= fun ys =>
        pure (y.toList ++ ys)

/-- The block `async with session.begin()`: the body, then `commit`; an exception
    of the body or of the commit runs `rollback` and is raised again. -/
def transaction (commit rollback : S) (body : Prog S R ε α) : Prog S R ε α :=
  (body >>= fun a => stmt commit >>= fun _ => pure a).handle fun e =>
    stmt rollback >>= fun _ => raise e

/-- Every statement the program may still issue meets `P`. -/
def Only (P : S → Prop) : Prog S R ε α → Prop
  | .done _ => True
  | .call s k => P s ∧ ∀ r, (k r).Only P

@[simp] theorem pure_bind_eq (a : α) (f : α → Prog S R ε β) : (pure a >>= f) = f a := rfl

@[simp] theorem raise_bind (e : ε) (f : α → Prog S R ε β) : (raise e >>= f) = raise e := rfl

@[simp] theorem call_bind (s : S) (k : Except ε (R s) → Prog S R ε α) (f : α → Prog S R ε β) :
    (Prog.call s k >>= f) = .call s fun r => k r >>= f := rfl

theorem bind_assoc (p : Prog S R ε α) (f : α → Prog S R ε β) (g : β → Prog S R ε γ) :
    (p >>= f >>= g) = p >>= fun a => f a >>= g := by
  induction p with
  | done r => cases r <;> rfl
  | call s k ih =>
      simp only [call_bind]
      congr 1
      funext r
      exact ih r

/-! ### Which statements a program may issue -/

section Only

variable {P : S → Prop}

@[simp] theorem only_pure (a : α) : (pure a : Prog S R ε α).Only P := trivial

@[simp] theorem only_raise (e : ε) : (raise e : Prog S R ε α).Only P := trivial

@[simp] theorem only_stmt {s : S} : (stmt s : Prog S R ε (R s)).Only P ↔ P s :=
  ⟨fun h => h.1, fun h => ⟨h, fun _ => trivial⟩⟩

theorem only_bind {p : Prog S R ε α} {f : α → Prog S R ε β} (first : p.Only P)
    (rest : ∀ a, (f a).Only P) : (p >>= f).Only P := by
  induction p with
  | done r =>
      cases r with
      | ok a => exact rest a
      | error e => exact trivial
  | call s k ih => exact ⟨first.1, fun r => ih r (first.2 r)⟩

theorem only_raiseIf {cond : Prop} [Decidable cond] {e : ε} :
    (raiseIf cond e : Prog S R ε Unit).Only P := by
  unfold raiseIf
  split <;> trivial

theorem only_orRaise {value : Option α} {e : ε} : (orRaise value e : Prog S R ε α).Only P := by
  cases value <;> trivial

theorem only_attempt {p : Prog S R ε α} (h : p.Only P) : p.attempt.Only P := by
  induction p with
  | done r => trivial
  | call s k ih => exact ⟨h.1, fun r => ih r (h.2 r)⟩

theorem only_handle {p : Prog S R ε α} {f : ε → Prog S R ε α} (h : p.Only P)
    (handler : ∀ e, (f e).Only P) : (p.handle f).Only P :=
  only_bind (only_attempt h) fun r => by
    cases r with
    | ok a => trivial
    | error e => exact handler e

theorem only_forEach {xs : List β} {f : β → Prog S R ε Unit} (h : ∀ x ∈ xs, (f x).Only P) :
    (forEach xs f).Only P := by
  induction xs with
  | nil => trivial
  | cons x rest ih =>
      exact only_bind (h x (by simp)) fun _ => ih fun y member => h y (by simp [member])

theorem only_collect {xs : List β} {f : β → Prog S R ε (Option γ)} (h : ∀ x ∈ xs, (f x).Only P) :
    (collect xs f).Only P := by
  induction xs with
  | nil => trivial
  | cons x rest ih =>
      refine only_bind (h x (by simp)) fun _ => ?_
      exact only_bind (ih fun y member => h y (by simp [member])) fun _ => trivial

theorem only_transaction {commit rollback : S} {body : Prog S R ε α} (h : body.Only P)
    (ends : P commit ∧ P rollback) : (transaction commit rollback body).Only P :=
  only_handle (only_bind h fun _ => only_bind (only_stmt.mpr ends.1) fun _ => trivial) fun _ =>
    only_bind (only_stmt.mpr ends.2) fun _ => trivial

theorem Only.mono {Q : S → Prop} {p : Prog S R ε α} (h : p.Only P) (weaker : ∀ s, P s → Q s) :
    p.Only Q := by
  induction p with
  | done r => trivial
  | call s k ih => exact ⟨weaker s h.1, fun r => ih r (h.2 r)⟩

end Only

end Prog

end SaasTemplate.Isolation
