import SaasTemplate.Isolation.RelyGuarantee

/-! # Watching what the clients read

A machine with a record of what the answers of each client have shown. The record changes
nothing: every run of the machine is the run of a watched one.
-/

set_option linter.unusedSectionVars false

namespace SaasTemplate.Isolation

/-- The store, and what each client has seen. -/
structure Watched (τ Db O : Type) where
  store : Db
  seen : τ → O

section Watching

variable {τ S : Type} {R : S → Type} {ε Db O α : Type} [DecidableEq τ]

/-- `note` says what a client has seen after an answer, which it gets in the given store. -/
def Machine.watched (M : Machine τ S R ε Db) (note : Db → O → (s : S) → Except ε (R s) → O) :
    Machine τ S R ε (Watched τ Db O) where
  exec t s w := (M.exec t s w.store).map fun out =>
    (out.1, ⟨out.2, Function.update w.seen t (note w.store (w.seen t) s out.1)⟩)
  fallible := M.fallible
  crash t w := { w with store := M.crash t w.store }
  env w w' := ∃ store, M.env w.store store ∧ w' = { w with store }

/-- A configuration whose clients have seen this. -/
def Config.watched (c : Config τ S R ε Db α) (seen : τ → O) :
    Config τ S R ε (Watched τ Db O) α := ⟨⟨c.db, seen⟩, c.run⟩

variable {M : Machine τ S R ε Db} (note : Db → O → (s : S) → Except ε (R s) → O)
  {allowed : τ → S → Db → Prop} {c d : Config τ S R ε Db α}

variable {note} in
theorem Machine.watched_exec {t : τ} {s : S} {w w' : Watched τ Db O} {r : Except ε (R s)}
    (h : (M.watched note).exec t s w = some (r, w')) :
    M.exec t s w.store = some (r, w'.store) ∧
      w'.seen = Function.update w.seen t (note w.store (w.seen t) s r) := by
  obtain ⟨out, executed, is⟩ := Option.map_eq_some_iff.mp h
  cases is
  exact ⟨executed, rfl⟩

theorem Machine.Step.watched (step : M.Step allowed c d) (seen : τ → O) :
    ∃ seen', (M.watched note).Step (fun t s w => allowed t s w.store) (c.watched seen)
      (d.watched seen') := by
  cases step with
  | @exec t s k r db' running ok executed =>
      refine ⟨Function.update seen t (note c.db (seen t) s r), ?_⟩
      exact .exec running ok (by simp [Machine.watched, Config.watched, executed])
  | fault e running fallible => exact ⟨seen, .fault e running fallible⟩
  | crash running => exact ⟨seen, .crash running⟩
  | env moved => exact ⟨seen, .env ⟨_, moved, rfl⟩⟩

/-- Every run can be watched. -/
theorem Machine.Reaches.watched (run : M.Reaches allowed c d) (seen : τ → O) :
    ∃ seen', (M.watched note).Reaches (fun t s w => allowed t s w.store) (c.watched seen)
      (d.watched seen') := by
  induction run with
  | refl => exact ⟨seen, .refl⟩
  | tail _ step ih =>
      obtain ⟨between, before⟩ := ih
      obtain ⟨after, last⟩ := step.watched note between
      exact ⟨after, before.tail last⟩

end Watching

end SaasTemplate.Isolation
