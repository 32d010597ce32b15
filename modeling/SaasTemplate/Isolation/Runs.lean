import Mathlib.Data.List.Chain
import SaasTemplate.Isolation.RelyGuarantee

/-! # Runs as lists of configurations

Some properties are about how often something happens in a run, or about what comes
after what. For these a run is the list of its configurations, and the step at a
position is the pair of neighbours there. The last part is about programs that can
only end normally by committing.
-/

set_option linter.unusedSectionVars false

namespace SaasTemplate.Isolation

/-! ### Positions in a chain -/

section Chains

variable {X E : Type} {R : X → X → Prop} {cs : List X}

/-- The elements at positions `n` and `n + 1`. -/
structure StepAt (cs : List X) (n : ℕ) (a b : X) : Prop where
  before : cs[n]? = some a
  after : cs[n + 1]? = some b

theorem StepAt.rel {n : ℕ} {a b : X} (h : StepAt cs n a b) (chain : cs.IsChain R) : R a b := by
  obtain ⟨_, rfl⟩ := List.getElem?_eq_some_iff.mp h.before
  obtain ⟨short, rfl⟩ := List.getElem?_eq_some_iff.mp h.after
  exact chain.getElem n short

theorem exists_stepAt {n m : ℕ} {d : X} (here : cs[n]? = some d) (below : m < n) :
    ∃ a b, StepAt cs m a b := by
  obtain ⟨short, -⟩ := List.getElem?_eq_some_iff.mp here
  exact ⟨_, _, List.getElem?_eq_getElem (by omega), List.getElem?_eq_getElem (by omega)⟩

/-- Induction along a chain, from one position to a later one. -/
theorem chain_induction {P : X → Prop} {m n : ℕ} {a d : X} (first : cs[m]? = some a)
    (last : cs[n]? = some d) (order : m ≤ n) (start : P a)
    (step : ∀ k b c, k < n → StepAt cs k b c → P b → P c) : P d := by
  induction n generalizing d with
  | zero =>
      obtain rfl : m = 0 := by omega
      obtain rfl : a = d := Option.some.inj (first.symm.trans last)
      exact start
  | succ n ih =>
      by_cases same : m = n + 1
      · subst same
        obtain rfl : a = d := Option.some.inj (first.symm.trans last)
        exact start
      · obtain ⟨b, c, here⟩ := exists_stepAt last (Nat.lt_succ_self n)
        obtain rfl : c = d := Option.some.inj (here.after.symm.trans last)
        apply step n b c (by omega) here
        exact ih here.before (by omega) fun k b c below => step k b c (by omega)

section Switch

variable {on : X → Prop} {event : E → X → X → Prop}
  (stays : ∀ n a b, StepAt cs n a b → on a → on b)
  (starts : ∀ n a b, StepAt cs n a b → ¬on a → on b → ∃ e, event e a b)
  (switches : ∀ n a b e, StepAt cs n a b → event e a b → ¬on a ∧ on b)

include starts in
theorem exists_event_of_on {start d : X} (first : cs[0]? = some start) (off : ¬on start) {n : ℕ}
    (last : cs[n]? = some d) (lit : on d) :
    ∃ m e a b, m < n ∧ StepAt cs m a b ∧ event e a b := by
  by_contra none
  refine chain_induction (P := fun c => ¬on c) first last (Nat.zero_le n) off ?_ lit
  intro m a b below here dark light
  obtain ⟨e, happens⟩ := starts m a b here dark light
  exact none ⟨m, e, a, b, below, here, happens⟩

include stays switches in
theorem event_unrepeated {m m' : ℕ} {a b a' b' : X} {e e' : E} (here : StepAt cs m a b)
    (happens : event e a b) (there : StepAt cs m' a' b') (again : event e' a' b') : m' ≤ m := by
  by_contra order
  have lit : on a' := chain_induction here.after there.before (by omega)
    (switches m a b e here happens).2 fun k b c _ => stays k b c
  exact (switches m' a' b' e' there again).1 lit

include stays starts switches in
/-- What starts off, stays on once it is on, and is switched on by events of one kind,
    is on exactly when there has been exactly one such event. -/
theorem on_iff_existsUnique_event
    (alone : ∀ n a b e e', StepAt cs n a b → event e a b → event e' a b → e = e')
    {start d : X} (first : cs[0]? = some start) (off : ¬on start) {n : ℕ} (last : cs[n]? = some d) :
    on d ↔ ∃! p : ℕ × E, p.1 < n ∧ ∃ a b, StepAt cs p.1 a b ∧ event p.2 a b := by
  constructor
  · intro lit
    obtain ⟨m, e, a, b, below, here, happens⟩ := exists_event_of_on starts first off last lit
    refine ⟨(m, e), ⟨below, a, b, here, happens⟩, ?_⟩
    rintro ⟨m', e'⟩ ⟨-, a', b', there, again⟩
    obtain rfl : m' = m := le_antisymm
      (event_unrepeated stays switches here happens there again)
      (event_unrepeated stays switches there again here happens)
    obtain rfl : a = a' := Option.some.inj (here.before.symm.trans there.before)
    obtain rfl : b = b' := Option.some.inj (here.after.symm.trans there.after)
    rw [alone m' a b e e' here happens again]
  · rintro ⟨⟨m, e⟩, ⟨below, a, b, here, happens⟩, -⟩
    exact chain_induction here.after last below (switches m a b e here happens).2
      fun k b c _ => stays k b c

end Switch

end Chains

/-! ### The programs of a run -/

section Programs

variable {τ S : Type} {R : S → Type} {ε Db α β : Type} [DecidableEq τ] {M : Machine τ S R ε Db}
  {allowed : τ → S → Db → Prop} {c d : Config τ S R ε Db α} {t u : τ}

/-- A client that still has to run. -/
def Config.Running (c : Config τ S R ε Db α) (t : τ) : Prop :=
  ∃ s k, c.run t = some (.call s k)

theorem Config.not_running_of_result {r : Except ε α} (h : c.result t = some r) : ¬c.Running t := by
  rintro ⟨s, k, running⟩
  simp [Config.run_of_result h] at running

namespace Machine.Step

/-- A client that has ended or crashed is left alone. -/
theorem run_of_not_running (h : M.Step allowed c d) (idle : ¬c.Running t) : d.run t = c.run t := by
  have other : ∀ {u s k}, c.run u = some (.call s k) → t ≠ u := by
    rintro u s k running rfl
    exact idle ⟨s, k, running⟩
  cases h with
  | exec running => exact Function.update_of_ne (other running) _ _
  | fault e running => exact Function.update_of_ne (other running) _ _
  | crash running => exact Function.update_of_ne (other running) _ _
  | env => rfl

theorem not_running (h : M.Step allowed c d) (idle : ¬c.Running t) : ¬d.Running t := by
  rintro ⟨s, k, running⟩
  exact idle ⟨s, k, (h.run_of_not_running idle).symm.trans running⟩

theorem result_stays (h : M.Step allowed c d) {r : Except ε α} (ended : c.result t = some r) :
    d.result t = some r := by
  have same := h.run_of_not_running (Config.not_running_of_result ended)
  simpa [Config.result, same] using ended

/-- Only one client moves in a step. -/
theorem mover_unique (h : M.Step allowed c d) (first : d.run t ≠ c.run t)
    (second : d.run u ≠ c.run u) : t = u := by
  by_contra differ
  cases h with
  | @exec v s k r db' | @fault v s k | @crash v s k =>
      by_cases mine : t = v
      · exact second (Function.update_of_ne (fun same => differ (mine.trans same.symm)) _ _)
      · exact first (Function.update_of_ne mine _ _)
  | env => exact first rfl

/-- What every remaining program has in common, if running it further keeps it. -/
theorem programs {P : τ → Prog S R ε α → Prop}
    (further : ∀ t s k r, P t (.call s k) → (∃ s' k', k r = .call s' k') → P t (k r))
    (h : M.Step allowed c d) (before : ∀ t s k, c.run t = some (.call s k) → P t (.call s k)) :
    ∀ t s k, d.run t = some (.call s k) → P t (.call s k) := by
  have moved : ∀ {u s k rest}, c.run u = some (.call s k) → (∀ p, rest = some p → ∃ r, p = k r) →
      ∀ t s' k', Function.update c.run u rest t = some (.call s' k') → P t (.call s' k') := by
    intro u s k rest running continues t s' k' now
    by_cases same : t = u
    · subst same
      obtain ⟨r, is⟩ := continues _ (by simpa using now)
      exact is ▸ further t s k r (before t s k running) ⟨s', k', is.symm⟩
    · exact before t s' k' (by simpa [Function.update_of_ne same] using now)
  cases h with
  | exec running => exact moved running fun p is => ⟨_, (Option.some.inj is).symm⟩
  | fault e running => exact moved running fun p is => ⟨_, (Option.some.inj is).symm⟩
  | crash running => exact moved running nofun
  | env => exact before

end Machine.Step

namespace Prog

/-- The program ends normally only by executing `commit`, and then at once. -/
def CommitsLast (commit : S) : Prog S R ε α → Prop
  | .done r => ∃ e, r = .error e
  | .call s k =>
      (s = commit → ∀ x, ∃ a, k (.ok x) = .done (.ok a)) ∧
      ∀ r, (s = commit → ∃ e, r = .error e) → (k r).CommitsLast commit

theorem commitsLast_raise {commit : S} {e : ε} :
    (raise e : Prog S R ε α).CommitsLast commit := ⟨e, rfl⟩

theorem commitsLast_map {commit : S} {p : Prog S R ε α} (h : p.CommitsLast commit) (f : α → β) :
    (p >>= fun a => pure (f a)).CommitsLast commit := by
  induction p with
  | done r =>
      obtain ⟨e, rfl⟩ := h
      exact ⟨e, rfl⟩
  | call s k ih =>
      refine ⟨fun is x => ?_, fun r later => ih r (h.2 r later)⟩
      obtain ⟨a, ends⟩ := h.1 is x
      exact ⟨f a, by simp only [ends]; rfl⟩

theorem commitsLast_checked {commit : S} {cond : Prop} [Decidable cond] {e : ε}
    {p : Prog S R ε α} (h : p.CommitsLast commit) :
    (raiseIf cond e >>= fun _ => p).CommitsLast commit := by
  unfold raiseIf
  split
  · exact commitsLast_raise
  · exact h

theorem commitsLast_transaction {commit rollback : S} (differ : rollback ≠ commit)
    {body : Prog S R ε α} (inner : body.Only (· ≠ commit)) :
    (transaction commit rollback body).CommitsLast commit := by
  have undo : ∀ e, (stmt rollback >>= fun _ => (raise e : Prog S R ε α)).CommitsLast commit := by
    intro e
    refine ⟨fun is => absurd is differ, fun r _ => ?_⟩
    cases r <;> exact ⟨_, rfl⟩
  induction body with
  | done r =>
      cases r with
      | error e => exact undo e
      | ok a =>
          refine ⟨fun _ x => ⟨a, rfl⟩, fun r failed => ?_⟩
          obtain ⟨e, rfl⟩ := failed rfl
          exact undo e
  | call s k ih => exact ⟨fun is => absurd is inner.1, fun r _ => ih r (inner.2 r)⟩

/-- Transactions with some checks before them: inside, every statement meets `P`. -/
structure Transactional (commit rollback : S) (P : S → Prop) (p : Prog S R ε α) : Prop where
  commitsLast : p.CommitsLast commit
  only : p.Only fun s => s = commit ∨ s = rollback ∨ P s

section Transactional

variable {commit rollback : S} {P : S → Prop} {p : Prog S R ε α}

theorem Transactional.map (h : p.Transactional commit rollback P) (f : α → β) :
    (p >>= fun a => pure (f a)).Transactional commit rollback P :=
  ⟨commitsLast_map h.commitsLast f, only_bind h.only fun _ => only_pure _⟩

theorem Transactional.checked {cond : Prop} [Decidable cond] {e : ε}
    (h : p.Transactional commit rollback P) :
    (raiseIf cond e >>= fun _ => p).Transactional commit rollback P :=
  ⟨commitsLast_checked h.commitsLast, only_bind only_raiseIf fun _ => h.only⟩

theorem transactional (differ : rollback ≠ commit) (outside : ¬P commit) (inner : p.Only P) :
    (transaction commit rollback p).Transactional commit rollback P where
  commitsLast := commitsLast_transaction differ (inner.mono fun _ holds is => outside (is ▸ holds))
  only := only_transaction (inner.mono fun _ holds => .inr (.inr holds)) ⟨.inl rfl, .inr (.inl rfl)⟩

end Transactional

end Prog

namespace Machine.Step

variable {commit : S}

theorem only {P : τ → S → Prop} (h : M.Step allowed c d)
    (before : ∀ t s k, c.run t = some (.call s k) → (Prog.call s k).Only (P t)) :
    ∀ t s k, d.run t = some (.call s k) → (Prog.call s k).Only (P t) :=
  h.programs (P := fun t p => p.Only (P t)) (fun _ _ _ r holds _ => holds.2 r) before

theorem commitsLast (h : M.Step allowed c d)
    (before : ∀ t s k, c.run t = some (.call s k) → (Prog.call s k).CommitsLast commit) :
    ∀ t s k, d.run t = some (.call s k) → (Prog.call s k).CommitsLast commit := by
  refine h.programs (P := fun _ p => p.CommitsLast commit) ?_ before
  rintro t s k r holds ⟨s', k', next⟩
  refine holds.2 r fun is => ?_
  cases r with
  | error e => exact ⟨e, rfl⟩
  | ok x =>
      obtain ⟨a, ends⟩ := holds.1 is x
      simp [ends] at next

end Machine.Step

/-- The invariant rule for a store that every statement of a kind keeps by itself. -/
theorem Machine.Reaches.keeps {inv : Db → Prop} {P : τ → S → Prop}
    (exec : ∀ {t s db r db'}, inv db → P t s → allowed t s db → M.exec t s db = some (r, db') →
      inv db')
    (crash : ∀ {t db}, inv db → inv (M.crash t db))
    (env : ∀ {db db'}, inv db → M.env db db' → inv db')
    (only : ∀ t s k, c.run t = some (.call s k) → (Prog.call s k).Only (P t))
    (start : inv c.db) (run : M.Reaches allowed c d) : inv d.db := by
  suffices both : inv d.db ∧ ∀ t s k, d.run t = some (.call s k) → (Prog.call s k).Only (P t) from
    both.1
  induction run with
  | refl => exact ⟨start, only⟩
  | tail _ step ih =>
      obtain ⟨holds, onlys⟩ := ih
      refine ⟨?_, step.only onlys⟩
      cases step with
      | exec running ok executed => exact exec holds (onlys _ _ _ running).1 ok executed
      | fault => exact holds
      | crash => exact crash holds
      | env moved => exact env holds moved

/-- A postcondition that no step breaks holds of every client that has ended. -/
theorem Contract.Sound.results {C : Contract τ S Db} {Q : τ → Except ε α → Db → Prop}
    (sound : C.Sound M)
    (guards : ∀ {t u r db db'}, Q t r db → C.guar u db db' → Q t r db')
    (envs : ∀ {t r db db'}, Q t r db → M.env db db' → Q t r db')
    (start : ∀ t r, c.result t = some r → Q t r c.db) (safe : Contract.Sound.Safe M C Q c)
    (run : M.Reaches C.allowed c d) : ∀ t r, d.result t = some r → Q t r d.db := by
  induction run with
  | refl => exact start
  | @tail middle last before step ih =>
      intro t r ended
      have here := sound.invariant safe before
      by_cases running : middle.Running t
      · obtain ⟨s, k, running⟩ := running
        exact sound.ends here step running ended
      · have same := step.run_of_not_running running
        have still := ih t r (by simpa [Config.result, same] using ended)
        rcases sound.guarantee here step with ⟨u, promised⟩ | moved | unmoved
        · exact guards still promised
        · exact envs still moved
        · rwa [unmoved]

end Programs

end SaasTemplate.Isolation
