import Mathlib.Data.Fintype.Order
import Mathlib.Order.WellFounded
import SaasTemplate.Isolation.RelyGuarantee

/-! # Runs that go on for ever

A run as a sequence of configurations, each one step after the one before. Finitely many clients
come to rest, and then only the environment moves. For one client, `LeavesLast` says what the
store looked like right after the last of its statements of some kind; later steps of others do
not matter to that.
-/

set_option linter.unusedSectionVars false

namespace SaasTemplate.Isolation

variable {τ S : Type} {R : S → Type} {ε Db α β γ : Type}

namespace Prog

/-- An answer leads on. -/
theorem answer_ne {s : S} {k : Except ε (R s) → Prog S R ε α} (r : Except ε (R s)) :
    k r ≠ .call s k := by
  suffices strict : ∀ p : Prog S R ε α, ∀ s k r, p = .call s k → k r ≠ p from
    strict _ s k r rfl
  intro p
  induction p with
  | done _ => exact fun _ _ _ is => by cases is
  | call s k ih =>
      intro s' k' r' is same
      cases is
      exact ih r' s k r' same rfl

/-- What may become of the program of a client in one of its steps. -/
inductive Later : Option (Prog S R ε α) → Option (Prog S R ε α) → Prop where
  | answered {s k} (r : Except ε (R s)) : Later (some (k r)) (some (.call s k))
  | lost {s k} : Later none (some (.call s k))

theorem Later.was_call {p q : Option (Prog S R ε α)} (h : Later q p) :
    ∃ s k, p = some (.call s k) := by
  cases h <;> exact ⟨_, _, rfl⟩

theorem later_wellFounded : WellFounded (Later (S := S) (R := R) (ε := ε) (α := α)) := by
  have gone : Acc (Later (S := S) (R := R) (ε := ε) (α := α)) none :=
    ⟨none, fun _ h => by cases h⟩
  refine ⟨fun x => ?_⟩
  cases x with
  | none => exact gone
  | some p =>
      induction p with
      | done _ => exact ⟨_, fun _ h => by cases h⟩
      | call s k ih =>
          refine ⟨_, fun _ h => ?_⟩
          cases h with
          | answered r => exact ih r
          | lost => exact gone

end Prog

namespace Machine

variable [DecidableEq τ] (M : Machine τ S R ε Db) {allowed : τ → S → Db → Prop}
  {c : ℕ → Config τ S R ε Db α} {a b : Config τ S R ε Db α} {t : τ}

/-- Every configuration is one step after the one before. -/
def Endless (allowed : τ → S → Db → Prop) (c : ℕ → Config τ S R ε Db α) : Prop :=
  ∀ n, M.Step allowed (c n) (c (n + 1))

/-- The step from `a` to `b` executes statement `s` of client `t`, with the answer `r`. -/
def Executes (t : τ) (s : S) (r : Except ε (R s)) (a b : Config τ S R ε Db α) : Prop :=
  ∃ k, a.run t = some (.call s k) ∧ M.exec t s a.db = some (r, b.db) ∧ b.run t = some (k r)

/-- Step `m` is the last one before `n` that executes an `on` statement of client `t`. -/
structure LastOn (on : S → Bool) (c : ℕ → Config τ S R ε Db α) (t : τ) (n m : ℕ) : Prop where
  before : m < n
  executes : ∃ s r, on s = true ∧ M.Executes t s r (c m) (c (m + 1))
  last : ∀ j, m < j → j < n → ∀ s r, on s = true → ¬M.Executes t s r (c j) (c (j + 1))

variable {M}

/-! ## Coming to rest -/

theorem Step.later (h : M.Step allowed a b) (t : τ) :
    b.run t = a.run t ∨ Prog.Later (b.run t) (a.run t) := by
  have elsewhere : ∀ {u : τ} {p : Option (Prog S R ε α)}, t ≠ u →
      Function.update a.run u p t = a.run t := fun other => Function.update_of_ne other _ _
  cases h with
  | @exec u s k r db' running _ _ =>
      by_cases same : t = u
      · subst same
        exact .inr (by simpa [running] using .answered r)
      · exact .inl (elsewhere same)
  | @fault u s k e running _ =>
      by_cases same : t = u
      · subst same
        exact .inr (by simpa [running] using .answered (.error e))
      · exact .inl (elsewhere same)
  | @crash u s k running =>
      by_cases same : t = u
      · subst same
        exact .inr (by simpa [running] using .lost)
      · exact .inl (elsewhere same)
  | env => exact .inl rfl

theorem rests (goes : M.Endless allowed c) (t : τ) :
    ∃ N, ∀ n, N ≤ n → (c n).run t = (c N).run t := by
  obtain ⟨_, ⟨N, rfl⟩, least⟩ := Prog.later_wellFounded.has_min
    (Set.range fun n => (c n).run t) ⟨_, 0, rfl⟩
  refine ⟨N, fun n later => ?_⟩
  induction n, later using Nat.le_induction with
  | base => rfl
  | succ n _ ih =>
      rcases (goes n).later t with same | moved
      · exact same.trans ih
      · have further : Prog.Later ((c (n + 1)).run t) ((c N).run t) := ih ▸ moved
        exact absurd further (least _ ⟨n + 1, rfl⟩)

/-- Finitely many clients all come to rest. -/
theorem all_rest [Finite τ] (goes : M.Endless allowed c) :
    ∃ N, ∀ n, N ≤ n → ∀ t, (c n).run t = (c N).run t := by
  choose from_ at_rest using rests goes
  obtain ⟨N, bound⟩ := Finite.exists_le from_
  refine ⟨N, fun n later t => ?_⟩
  rw [at_rest t n ((bound t).trans later), at_rest t N (bound t)]

/-- A step after which every program is where it was is a step of the environment. -/
theorem Step.env_of_rest (h : M.Step allowed a b) (rest : ∀ t, b.run t = a.run t) :
    M.env a.db b.db := by
  cases h with
  | @exec u s k r db' running _ _ =>
      have same := rest u
      rw [running] at same
      simp only [Function.update_self, Option.some.injEq] at same
      exact absurd same (Prog.answer_ne r)
  | @fault u s k e running _ =>
      have same := rest u
      rw [running] at same
      simp only [Function.update_self, Option.some.injEq] at same
      exact absurd same (Prog.answer_ne _)
  | @crash u s k running =>
      have same := rest u
      rw [running] at same
      simp at same
  | env moved => exact moved

end Machine

/-! ## The last statement of some kind -/

section Last

variable [DecidableEq τ] (M : Machine τ S R ε Db) (t : τ) (on : S → Bool) (look : Db → β)

/-- `Q` holds of the result of the program and of what `look` shows right after the last of its
    `on` statements, whatever the others do to the store between two statements. `seen` is what
    was seen last so far. -/
def Prog.LeavesLast (Q : Except ε α → Option β → Prop) : Prog S R ε α → Option β → Prop
  | .done r, seen => Q r seen
  | .call s k, seen =>
      (∀ db r db', M.exec t s db = some (r, db') →
        (k r).LeavesLast Q (if on s = true then some (look db') else seen)) ∧
      (M.fallible s → ∀ e, (k (.error e)).LeavesLast Q seen)

variable {M t on look} {seen : Option β}

namespace Prog

theorem LeavesLast.bind {p : Prog S R ε α} {f : α → Prog S R ε γ}
    {Q : Except ε α → Option β → Prop} {Q' : Except ε γ → Option β → Prop}
    (h : p.LeavesLast M t on look Q seen)
    (further : ∀ a seen, Q (.ok a) seen → (f a).LeavesLast M t on look Q' seen)
    (fails : ∀ e seen, Q (.error e) seen → Q' (.error e) seen) :
    (p >>= f).LeavesLast M t on look Q' seen := by
  induction p generalizing seen with
  | done r =>
      cases r with
      | ok a => exact further a seen h
      | error e => exact fails e seen h
  | call s k ih =>
      exact ⟨fun db r db' executed => ih r (h.1 db r db' executed),
        fun may e => ih (.error e) (h.2 may e)⟩

theorem LeavesLast.mono {p : Prog S R ε α} {Q Q' : Except ε α → Option β → Prop}
    (h : p.LeavesLast M t on look Q seen) (weaker : ∀ r seen, Q r seen → Q' r seen) :
    p.LeavesLast M t on look Q' seen := by
  induction p generalizing seen with
  | done r => exact weaker r seen h
  | call s k ih =>
      exact ⟨fun db r db' executed => ih r (h.1 db r db' executed),
        fun may e => ih (.error e) (h.2 may e)⟩

theorem leavesLast_pure {a : α} {Q : Except ε α → Option β → Prop} (h : Q (.ok a) seen) :
    (pure a : Prog S R ε α).LeavesLast M t on look Q seen := h

end Prog

/-- In an endless run, what the program says of its last `on` statement holds when it ends. -/
theorem Machine.Endless.leavesLast {allowed : τ → S → Db → Prop} {c : ℕ → Config τ S R ε Db α}
    (goes : M.Endless allowed c) {p : Prog S R ε α} {Q : Except ε α → Option β → Prop}
    (starts : (c 0).run t = some p) (h : p.LeavesLast M t on look Q none) {n : ℕ}
    {r : Except ε α} (ended : (c n).result t = some r) :
    ∃ seen, Q r seen ∧ ∀ b, seen = some b →
      ∃ m, M.LastOn on c t n m ∧ look (c (m + 1)).db = b := by
  suffices kept : ∀ q, (c n).run t = some q → ∃ seen, q.LeavesLast M t on look Q seen ∧
      ∀ b, seen = some b → ∃ m, M.LastOn on c t n m ∧ look (c (m + 1)).db = b from
    kept _ (Config.run_of_result ended)
  clear ended
  induction n with
  | zero =>
      intro q running
      cases Option.some.inj (starts.symm.trans running)
      exact ⟨none, h, by simp⟩
  | succ n ih =>
      intro q running
      -- a step that is not an `on` statement of `t` leaves the last one where it was
      have skips : (∀ s r, on s = true → ¬M.Executes t s r (c n) (c (n + 1))) → ∀ {m},
          M.LastOn on c t n m → M.LastOn on c t (n + 1) m := by
        intro idle m last
        refine ⟨last.before.trans (Nat.lt_succ_self n), last.executes, fun j after until_ => ?_⟩
        rcases Nat.lt_succ_iff_lt_or_eq.mp until_ with earlier | rfl
        · exact last.last j after earlier
        · exact idle
      by_cases executes : ∃ s r, M.Executes t s r (c n) (c (n + 1))
      · obtain ⟨s, r, k, before, executed, after⟩ := executes
        obtain ⟨seen, leaves, last⟩ := ih _ before
        cases Option.some.inj (after.symm.trans running)
        refine ⟨_, leaves.1 _ _ _ executed, ?_⟩
        by_cases concerns : on s = true
        · rw [if_pos concerns]
          rintro b ⟨⟩
          exact ⟨n, ⟨Nat.lt_succ_self n, ⟨s, r, concerns, k, before, executed, after⟩,
            fun j later until_ => by omega⟩, rfl⟩
        · rw [if_neg concerns]
          intro b is
          obtain ⟨m, lastOn, looks⟩ := last b is
          refine ⟨m, skips (fun s' r' concerns' => ?_) lastOn, looks⟩
          rintro ⟨k', before', -⟩
          cases Option.some.inj (before.symm.trans before')
          exact concerns concerns'
      · have idle : ∀ s r, on s = true → ¬M.Executes t s r (c n) (c (n + 1)) :=
          fun s r _ is => executes ⟨s, r, is⟩
        by_cases moved : (c (n + 1)).run t = (c n).run t
        · obtain ⟨seen, leaves, last⟩ := ih q (moved ▸ running)
          refine ⟨seen, leaves, fun b is => ?_⟩
          obtain ⟨m, lastOn, looks⟩ := last b is
          exact ⟨m, skips idle lastOn, looks⟩
        · rcases (goes n).later t with same | later
          · exact absurd same moved
          · obtain ⟨s, k, before⟩ := later.was_call
            obtain ⟨seen, leaves, last⟩ := ih _ before
            rcases (goes n).of_moved before moved with
              ⟨r, -, executed, after⟩ | ⟨e, may, -, after⟩ | ⟨-, after⟩
            · exact absurd ⟨s, r, k, before, executed, after⟩ executes
            · cases Option.some.inj (after.symm.trans running)
              refine ⟨seen, leaves.2 may e, fun b is => ?_⟩
              obtain ⟨m, lastOn, looks⟩ := last b is
              exact ⟨m, skips idle lastOn, looks⟩
            · rw [after] at running
              cases running

end Last

end SaasTemplate.Isolation
