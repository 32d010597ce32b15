import SaasTemplate.Isolation.Transactions

/-! # Programs that go through phases

An automaton says which statements a program may issue in which phase, and which phase an
answer leads to. That a program keeps to it is checked on the program alone. What a phase
says of the store is checked on one statement at a time, and holds in every run.
-/

set_option linter.unusedSectionVars false

namespace SaasTemplate.Isolation

variable {τ S : Type} {R : S → Type} {ε Db α β γ Φ : Type}

/-- The phase after a statement has answered; `none` where the statement is not allowed. -/
abbrev Automaton (Φ S : Type) (R : S → Type) (ε : Type) : Type :=
  Φ → (s : S) → Except ε (R s) → Option Φ

namespace Prog

/-- The program keeps to `δ` from a phase on, and `Q` holds of its result and its last phase. -/
def Follows (δ : Automaton Φ S R ε) (Q : Except ε α → Φ → Prop) : Prog S R ε α → Φ → Prop
  | .done r, φ => Q r φ
  | .call s k, φ => ∀ r, ∃ ψ, δ φ s r = some ψ ∧ (k r).Follows δ Q ψ

section Rules

variable {δ : Automaton Φ S R ε} {φ : Φ}

theorem follows_pure {a : α} {Q : Except ε α → Φ → Prop} (h : Q (.ok a) φ) :
    (pure a : Prog S R ε α).Follows δ Q φ := h

theorem follows_raise {e : ε} {Q : Except ε α → Φ → Prop} (h : Q (.error e) φ) :
    (raise e : Prog S R ε α).Follows δ Q φ := h

theorem follows_stmt {s : S} {Q : Except ε (R s) → Φ → Prop}
    (h : ∀ r, ∃ ψ, δ φ s r = some ψ ∧ Q r ψ) : (stmt s).Follows δ Q φ := h

theorem Follows.mono {p : Prog S R ε α} {Q Q' : Except ε α → Φ → Prop} (h : p.Follows δ Q φ)
    (weaker : ∀ r ψ, Q r ψ → Q' r ψ) : p.Follows δ Q' φ := by
  induction p generalizing φ with
  | done r => exact weaker r φ h
  | call s k ih =>
      intro r
      obtain ⟨ψ, allowed, rest⟩ := h r
      exact ⟨ψ, allowed, ih r rest⟩

/-- Sequencing: an exception of the first part ends the whole. -/
theorem Follows.bind {p : Prog S R ε α} {f : α → Prog S R ε β} {Q : Except ε α → Φ → Prop}
    {Q' : Except ε β → Φ → Prop} (h : p.Follows δ Q φ)
    (further : ∀ a ψ, Q (.ok a) ψ → (f a).Follows δ Q' ψ)
    (fails : ∀ e ψ, Q (.error e) ψ → Q' (.error e) ψ) : (p >>= f).Follows δ Q' φ := by
  induction p generalizing φ with
  | done r =>
      cases r with
      | ok a => exact further a φ h
      | error e => exact fails e φ h
  | call s k ih =>
      intro r
      obtain ⟨ψ, allowed, rest⟩ := h r
      exact ⟨ψ, allowed, ih r rest⟩

theorem Follows.attempt {p : Prog S R ε α} {Q : Except ε α → Φ → Prop} (h : p.Follows δ Q φ) :
    p.attempt.Follows δ (fun r ψ => ∃ a, r = .ok a ∧ Q a ψ) φ := by
  induction p generalizing φ with
  | done r => exact ⟨r, rfl, h⟩
  | call s k ih =>
      intro r
      obtain ⟨ψ, allowed, rest⟩ := h r
      exact ⟨ψ, allowed, ih r rest⟩

/-- A check that raises stays in its phase. -/
theorem follows_raiseIf {cond : Prop} [Decidable cond] {e : ε} {Q : Except ε Unit → Φ → Prop}
    (passes : Q (.ok ()) φ) (fails : Q (.error e) φ) :
    (raiseIf cond e : Prog S R ε Unit).Follows δ Q φ := by
  unfold raiseIf
  split
  · exact fails
  · exact passes

theorem follows_orRaise {value : Option α} {e : ε} {Q : Except ε α → Φ → Prop}
    (passes : ∀ a, Q (.ok a) φ) (fails : Q (.error e) φ) :
    (orRaise value e : Prog S R ε α).Follows δ Q φ := by
  cases value with
  | none => exact fails
  | some a => exact passes a

/-- A program whose statements do not leave the phase. -/
theorem Only.follows {P : S → Prop} {p : Prog S R ε α} (only : p.Only P)
    (stays : ∀ s, P s → ∀ r, δ φ s r = some φ) : p.Follows δ (fun _ ψ => ψ = φ) φ := by
  induction p with
  | done r => rfl
  | call s k ih => exact fun r => ⟨φ, stays s only.1 r, ih r (only.2 r)⟩

/-- A program whose statements keep what `I` says of the phases. -/
theorem Only.follows_keeping {P : S → Prop} {I : Φ → Prop} {p : Prog S R ε α} (only : p.Only P)
    (keeps : ∀ s φ, P s → I φ → ∀ r, ∃ ψ, δ φ s r = some ψ ∧ I ψ) (start : I φ) :
    p.Follows δ (fun _ ψ => I ψ) φ := by
  induction p generalizing φ with
  | done r => exact start
  | call s k ih =>
      intro r
      obtain ⟨ψ, allowed, kept⟩ := keeps s φ only.1 start r
      exact ⟨ψ, allowed, ih r (only.2 r) kept⟩

/-- A block that may commit where its body ends well, and may always roll back. -/
theorem Follows.block {commit rollback : S} {body : Prog S R ε α} {Q Q' : Except ε α → Φ → Prop}
    (run : body.Follows δ Q φ)
    (commits : ∀ a ψ, Q (.ok a) ψ → ∀ r, ∃ χ, δ ψ commit r = some χ ∧ ∀ x, r = .ok x → Q' (.ok a) χ)
    (rolls : ∀ ψ r, ∃ χ, δ ψ rollback r = some χ) (fails : ∀ e χ, Q' (.error e) χ) :
    (transaction commit rollback body).Follows δ Q' φ := by
  have undo : ∀ e ψ, (stmt rollback >>= fun _ => (raise e : Prog S R ε α)).Follows δ Q' ψ := by
    intro e ψ r
    obtain ⟨χ, allowed⟩ := rolls ψ r
    exact ⟨χ, allowed, by cases r <;> exact fails _ χ⟩
  induction body generalizing φ with
  | done r =>
      cases r with
      | error e => exact undo e φ
      | ok a =>
          intro r
          obtain ⟨χ, allowed, kept⟩ := commits a φ run r
          refine ⟨χ, allowed, ?_⟩
          cases r with
          | ok x => exact kept x rfl
          | error e => exact undo e χ
  | call s k ih =>
      intro r
      obtain ⟨ψ, allowed, rest⟩ := run r
      exact ⟨ψ, allowed, ih r rest⟩

theorem Follows.transaction {commit rollback : S} {body : Prog S R ε α}
    {Q : Except ε α → Φ → Prop} (run : body.Follows δ Q φ)
    (commits : ∀ a ψ, Q (.ok a) ψ → ∀ r, ∃ χ, δ ψ commit r = some χ)
    (rolls : ∀ ψ r, ∃ χ, δ ψ rollback r = some χ) :
    (transaction commit rollback body).Follows δ (fun _ _ => True) φ := by
  refine run.block (fun a ψ ends r => ?_) rolls fun _ _ => trivial
  obtain ⟨χ, allowed⟩ := commits a ψ ends r
  exact ⟨χ, allowed, fun _ _ => trivial⟩

end Rules

/-! ### Whatever is answered -/

/-- A result that the program may return, whatever its statements answer, meets `Q`. -/
def Returns (Q : α → Prop) : Prog S R ε α → Prop
  | .done (.ok a) => Q a
  | .done (.error _) => True
  | .call _ k => ∀ r, (k r).Returns Q

section Returns

variable {Q : α → Prop}

theorem returns_pure {a : α} (h : Q a) : (pure a : Prog S R ε α).Returns Q := h

theorem returns_raise {e : ε} : (raise e : Prog S R ε α).Returns Q := trivial

theorem returns_true (p : Prog S R ε α) : p.Returns fun _ => True := by
  induction p with
  | done r => cases r <;> trivial
  | call s k ih => exact ih

theorem Returns.bind {Q' : β → Prop} {p : Prog S R ε α} {f : α → Prog S R ε β}
    (h : p.Returns Q) (further : ∀ a, Q a → (f a).Returns Q') : (p >>= f).Returns Q' := by
  induction p with
  | done r =>
      cases r with
      | ok a => exact further a h
      | error e => trivial
  | call s k ih => exact fun r => ih r (h r)

/-- What the first program returns does not matter. -/
theorem returns_after {Q' : β → Prop} {p : Prog S R ε α} {f : α → Prog S R ε β}
    (further : ∀ a, (f a).Returns Q') : (p >>= f).Returns Q' :=
  (returns_true p).bind fun a _ => further a

theorem Returns.transaction {commit rollback : S} {body : Prog S R ε α} (h : body.Returns Q) :
    (transaction commit rollback body).Returns Q := by
  induction body with
  | done r =>
      cases r with
      | error e => exact fun r => by cases r <;> trivial
      | ok a =>
          intro r
          cases r with
          | ok x => exact h
          | error e => exact fun r => by cases r <;> trivial
  | call s k ih => exact fun r => ih r (h r)

theorem returns_collectUpTo {limit : Nat} {xs : List β} {f : β → Prog S R ε (Option γ)} :
    (collectUpTo limit xs f).Returns fun ys => ys.length ≤ limit := by
  induction xs generalizing limit with
  | nil => exact returns_pure (Nat.zero_le _)
  | cons x rest ih =>
      unfold collectUpTo
      split
      · exact returns_pure (Nat.zero_le _)
      · refine returns_after fun y => ih.bind fun ys bound => returns_pure ?_
        have one : y.toList.length ≤ 1 := by cases y <;> simp
        simp only [List.length_append]
        omega

end Returns

end Prog

/-! ### Runs -/

section Runs

variable [DecidableEq τ] {M : Machine τ S R ε Db} {allowed : τ → S → Db → Prop}
  {start c d : Config τ S R ε Db α}

/-- Every client keeps to its automaton from a phase on that says of the store what holds. -/
def InPhase (δ : τ → Automaton Φ S R ε) (Holds : τ → Φ → Config τ S R ε Db α → Prop)
    (c : Config τ S R ε Db α) : Prop :=
  ∀ t p, c.run t = some p → ∃ φ, p.Follows (δ t) (fun _ _ => True) φ ∧ Holds t φ c

/-- What a step of `t` into phase `ψ` leaves: the invariant, the phase, and the phases of the
    others. -/
structure Leads (Inv : Config τ S R ε Db α → Prop) (Holds : τ → Φ → Config τ S R ε Db α → Prop)
    (t : τ) (c d : Config τ S R ε Db α) : Prop where
  inv : Inv d
  others : ∀ u χ, u ≠ t → Holds u χ c → Holds u χ d

/-- What has to be shown of single steps. -/
structure Phased (M : Machine τ S R ε Db) (allowed : τ → S → Db → Prop)
    (δ : τ → Automaton Φ S R ε) (Inv : Config τ S R ε Db α → Prop)
    (Holds : τ → Φ → Config τ S R ε Db α → Prop) : Prop where
  exec : ∀ {c t s k r db' φ ψ}, Inv c → c.run t = some (.call s k) → allowed t s c.db →
    M.exec t s c.db = some (r, db') → Holds t φ c → δ t φ s r = some ψ →
      Leads Inv Holds t c ⟨db', Function.update c.run t (some (k r))⟩ ∧
        Holds t ψ ⟨db', Function.update c.run t (some (k r))⟩
  fault : ∀ {c t s k e φ ψ}, Inv c → c.run t = some (.call s k) → M.fallible s →
    Holds t φ c → δ t φ s (.error e) = some ψ →
      Leads Inv Holds t c ⟨c.db, Function.update c.run t (some (k (.error e)))⟩ ∧
        Holds t ψ ⟨c.db, Function.update c.run t (some (k (.error e)))⟩
  crash : ∀ {c t s k}, Inv c → c.run t = some (.call s k) →
    Leads Inv Holds t c ⟨M.crash t c.db, Function.update c.run t none⟩
  env : ∀ {c db'}, Inv c → M.env c.db db' →
    Inv ⟨db', c.run⟩ ∧ ∀ u χ, Holds u χ c → Holds u χ ⟨db', c.run⟩

variable {δ : τ → Automaton Φ S R ε} {Inv : Config τ S R ε Db α → Prop}
  {Holds : τ → Φ → Config τ S R ε Db α → Prop}

/-- The clients that did not move stay in their phases. -/
theorem InPhase.update {t : τ} {db' : Db} {rest : Option (Prog S R ε α)} (h : InPhase δ Holds c)
    (leads : Leads Inv Holds t c ⟨db', Function.update c.run t rest⟩)
    (mine : ∀ p, rest = some p → ∃ φ, p.Follows (δ t) (fun _ _ => True) φ ∧
      Holds t φ ⟨db', Function.update c.run t rest⟩) :
    InPhase δ Holds ⟨db', Function.update c.run t rest⟩ := by
  intro u p running
  by_cases same : u = t
  · subst same
    exact mine p (by simpa using running)
  · have running : c.run u = some p := by simpa [Function.update_of_ne same] using running
    obtain ⟨φ, follows, holds⟩ := h u p running
    exact ⟨φ, follows, leads.others u φ same holds⟩

theorem Phased.step (h : Phased M allowed δ Inv Holds) (inv : Inv c) (phases : InPhase δ Holds c)
    (moves : M.Step allowed c d) : Inv d ∧ InPhase δ Holds d := by
  cases moves with
  | @exec t s k r db' running ok executed =>
      obtain ⟨φ, follows, holds⟩ := phases t _ running
      obtain ⟨ψ, next, rest⟩ := follows r
      obtain ⟨leads, there⟩ := h.exec inv running ok executed holds next
      refine ⟨leads.inv, phases.update leads ?_⟩
      intro p is
      cases is
      exact ⟨ψ, rest, there⟩
  | @fault t s k e running may =>
      obtain ⟨φ, follows, holds⟩ := phases t _ running
      obtain ⟨ψ, next, rest⟩ := follows (.error e)
      obtain ⟨leads, there⟩ := h.fault inv running may holds next
      refine ⟨leads.inv, phases.update leads ?_⟩
      intro p is
      cases is
      exact ⟨ψ, rest, there⟩
  | @crash t s k running =>
      have leads := h.crash inv running
      exact ⟨leads.inv, phases.update leads nofun⟩
  | env moved =>
      obtain ⟨kept, stays⟩ := h.env inv moved
      refine ⟨kept, fun t p running => ?_⟩
      obtain ⟨φ, follows, holds⟩ := phases t p running
      exact ⟨φ, follows, stays t φ holds⟩

/-- In every run the invariant holds and the clients are in their phases. -/
theorem Phased.reaches (h : Phased M allowed δ Inv Holds) (inv : Inv start)
    (phases : InPhase δ Holds start) (run : M.Reaches allowed start c) :
    Inv c ∧ InPhase δ Holds c := by
  induction run with
  | refl => exact ⟨inv, phases⟩
  | tail _ moves ih => exact h.step ih.1 ih.2 moves

/-- What a program may return stays so while it runs. -/
theorem Prog.Returns.reaches {Q : α → Prop} {t : τ} (h : ∀ p, start.run t = some p → p.Returns Q)
    (run : M.Reaches allowed start c) : ∀ p, c.run t = some p → p.Returns Q := by
  induction run with
  | refl => exact h
  | @tail c d _ moves ih =>
      intro p running
      by_cases same : d.run t = c.run t
      · exact ih p (same ▸ running)
      · cases moves with
        | env => exact absurd rfl same
        | @exec u s k r db' going ok executed =>
            by_cases mine : t = u
            · subst mine
              simp only [Function.update_self, Option.some.injEq] at running
              exact running ▸ ih _ going r
            · exact absurd (Function.update_of_ne mine ..) same
        | @fault u s k e going may =>
            by_cases mine : t = u
            · subst mine
              simp only [Function.update_self, Option.some.injEq] at running
              exact running ▸ ih _ going _
            · exact absurd (Function.update_of_ne mine ..) same
        | @crash u s k going =>
            by_cases mine : t = u
            · subst mine
              simp at running
            · exact absurd (Function.update_of_ne mine ..) same

end Runs

end SaasTemplate.Isolation
