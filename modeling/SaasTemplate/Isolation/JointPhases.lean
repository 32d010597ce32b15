import SaasTemplate.Isolation.Phases

/-! # An invariant over the phases of all clients

Where the phase of one client limits what another may have done, the phases of all clients
and the store stand in one invariant. It is shown for one statement at a time.
-/

set_option linter.unusedSectionVars false

namespace SaasTemplate.Isolation

variable {τ S : Type} {R : S → Type} {ε Db α Φ : Type} [DecidableEq τ]

/-- What has to be shown of single steps. -/
structure Joint (M : Machine τ S R ε Db) (δ : Automaton Φ S R ε) (Inv : (τ → Φ) → Db → Prop) :
    Prop where
  exec : ∀ {φ t s r db db' ψ}, Inv φ db → M.exec t s db = some (r, db') → δ (φ t) s r = some ψ →
    Inv (Function.update φ t ψ) db'
  fault : ∀ {φ t s e db ψ}, Inv φ db → M.fallible s → δ (φ t) s (.error e) = some ψ →
    Inv (Function.update φ t ψ) db
  crash : ∀ {φ t db}, Inv φ db → Inv φ (M.crash t db)
  env : ∀ {φ db db'}, Inv φ db → M.env db db' → Inv φ db'

/-- Every program keeps to the automaton from the phase of its client on. -/
def Abides (δ : Automaton Φ S R ε) (φ : τ → Φ) (c : Config τ S R ε Db α) : Prop :=
  ∀ t p, c.run t = some p → p.Follows δ (fun _ _ => True) (φ t)

/-- The configuration is one of programs in phases that meet the invariant. -/
def Jointly (δ : Automaton Φ S R ε) (Inv : (τ → Φ) → Db → Prop) (c : Config τ S R ε Db α) : Prop :=
  ∃ φ, Abides δ φ c ∧ Inv φ c.db

variable {M : Machine τ S R ε Db} {δ : Automaton Φ S R ε} {Inv : (τ → Φ) → Db → Prop}
  {allowed : τ → S → Db → Prop} {c d : Config τ S R ε Db α}

/-- The others are where they were. -/
theorem Abides.update {φ : τ → Φ} (h : Abides δ φ c) {t : τ} {ψ : Φ} {db' : Db}
    {rest : Option (Prog S R ε α)}
    (mine : ∀ p, rest = some p → p.Follows δ (fun _ _ => True) ψ) :
    Abides δ (Function.update φ t ψ) ⟨db', Function.update c.run t rest⟩ := by
  intro u p running
  by_cases same : u = t
  · subst same
    simp only [Function.update_self] at running ⊢
    exact mine p running
  · simp only [Function.update_of_ne same] at running ⊢
    exact h u p running

theorem Joint.step (h : Joint M δ Inv) (before : Jointly δ Inv c) (moves : M.Step allowed c d) :
    Jointly δ Inv d := by
  obtain ⟨φ, abides, inv⟩ := before
  cases moves with
  | @exec t s k r db' running _ executed =>
      obtain ⟨ψ, next, rest⟩ := abides t _ running r
      refine ⟨_, abides.update fun p is => ?_, h.exec inv executed next⟩
      cases is
      exact rest
  | @fault t s k e running may =>
      obtain ⟨ψ, next, rest⟩ := abides t _ running (.error e)
      refine ⟨_, abides.update fun p is => ?_, h.fault inv may next⟩
      cases is
      exact rest
  | @crash t s k running =>
      have gone : Abides δ (Function.update φ t (φ t))
          ⟨M.crash t c.db, Function.update c.run t none⟩ := abides.update nofun
      rw [Function.update_eq_self] at gone
      exact ⟨φ, gone, h.crash inv⟩
  | env moved => exact ⟨φ, abides, h.env inv moved⟩

/-- In every run the programs are in phases that meet the invariant. -/
theorem Joint.reaches (h : Joint M δ Inv) (before : Jointly δ Inv c)
    (run : M.Reaches allowed c d) : Jointly δ Inv d := by
  induction run with
  | refl => exact before
  | tail _ moves ih => exact h.step ih moves

/-- What every statement keeps in the presence of the invariant, every run keeps. -/
theorem Joint.keeps (h : Joint M δ Inv) {P : Db → Prop}
    (exec : ∀ {φ t s r db db' ψ}, Inv φ db → P db → M.exec t s db = some (r, db') →
      δ (φ t) s r = some ψ → P db')
    (crash : ∀ {t db}, P db → P (M.crash t db)) (env : ∀ {db db'}, P db → M.env db db' → P db')
    (before : Jointly δ Inv c) (start : P c.db) (run : M.Reaches allowed c d) : P d.db := by
  have both : Joint M δ fun φ db => Inv φ db ∧ P db :=
    { exec := fun inv executed next =>
        ⟨h.exec inv.1 executed next, exec inv.1 inv.2 executed next⟩
      fault := fun inv may next => ⟨h.fault inv.1 may next, inv.2⟩
      crash := fun inv => ⟨h.crash inv.1, crash inv.2⟩
      env := fun inv moved => ⟨h.env inv.1 moved, env inv.2 moved⟩ }
  obtain ⟨φ, abides, inv⟩ := before
  obtain ⟨_, -, -, kept⟩ := both.reaches ⟨φ, abides, inv, start⟩ run
  exact kept

end SaasTemplate.Isolation
