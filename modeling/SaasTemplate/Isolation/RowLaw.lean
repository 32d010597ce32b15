import SaasTemplate.Isolation.RowLock

/-! # Laws of the rows of a table

A `RowLaw` says how one row may change from one committed version to the next.
Writing under the row lock keeps the law if each write keeps it, and unique indexes
are kept because an insert or update that would collide with a version that is still
undecided waits for it. What a step of one transaction may do to a table is `Moves`;
the same step, seen by a transaction that only counts on its own locks, is `Stays`.
-/

set_option linter.unusedSectionVars false

namespace SaasTemplate.Isolation

/-- How the version of a row may change over time. `none` is an absent row. -/
structure RowLaw (κ ρ : Type) where
  rel : κ → Option ρ → Option ρ → Prop
  refl : ∀ k a, rel k a a
  trans : ∀ k {a b c}, rel k a b → rel k b c → rel k a c

/-- The law of rows that are never deleted and change along `step`. -/
def RowLaw.persistent {κ ρ : Type} (step : κ → ρ → ρ → Prop) (refl : ∀ k r, step k r r)
    (trans : ∀ k r s u, step k r s → step k s u → step k r u) : RowLaw κ ρ where
  rel k a b := ∀ r, a = some r → ∃ s, b = some s ∧ step k r s
  refl k a r here := ⟨r, here, refl k r⟩
  trans k := by
    intro a b c first second r here
    obtain ⟨s, middle, left⟩ := first r here
    obtain ⟨u, last, right⟩ := second s middle
    exact ⟨u, last, trans k r s u left right⟩

section Persistent

variable {κ ρ : Type} {step : κ → ρ → ρ → Prop} {refl : ∀ k r, step k r r}
  {trans : ∀ k r s u, step k r s → step k s u → step k r u}

@[simp] theorem RowLaw.persistent_none (k : κ) (b : Option ρ) :
    (RowLaw.persistent step refl trans).rel k none b ↔ True :=
  ⟨fun _ => trivial, fun _ => nofun⟩

@[simp] theorem RowLaw.persistent_some (k : κ) (r : ρ) (b : Option ρ) :
    (RowLaw.persistent step refl trans).rel k (some r) b ↔ ∃ s, b = some s ∧ step k r s :=
  ⟨fun h => h r rfl, fun h s here => by cases here; exact h⟩

end Persistent

namespace Table

variable {κ τ ρ ι : Type} [DecidableEq κ] [DecidableEq τ] [DecidableEq ι]

/-! ## Locks -/

/-- What a step of `t` may do: it touches a row only if the row was free for it, and
    afterwards the row is its own or nobody's. -/
def Respects (t : τ) (T T' : Table κ τ ρ) : Prop :=
  ∀ k, T'.cell k = T.cell k ∨
    T.free t k = true ∧ (T'.holder k = none ∨ T'.holder k = some t)

/-- What the holder of locks can rely on: its rows stay as they are, and it is not
    given locks it did not take. -/
def Keeps (t : τ) (T T' : Table κ τ ρ) : Prop :=
  ∀ k, (T.holder k = some t → T'.cell k = T.cell k) ∧
    (T.holder k ≠ some t → T'.holder k ≠ some t)

theorem Respects.refl (t : τ) (T : Table κ τ ρ) : T.Respects t T := fun _ => .inl rfl

theorem respects_put {t : τ} {k : κ} {r : Option ρ} {T : Table κ τ ρ} (h : T.free t k = true) :
    T.Respects t (T.put t k r) := by
  intro j
  by_cases same : j = k
  · subst same
    exact .inr ⟨h, .inr (by simp)⟩
  · exact .inl (cell_put_other same)

theorem respects_commit (t : τ) (T : Table κ τ ρ) : T.Respects t (T.commit t) := by
  intro k
  by_cases held : T.holder k = some t
  · exact .inr ⟨by simp [free, Cell.free, show (T.cell k).holder = some t from held],
      .inl (by simp [holder_commit, held])⟩
  · exact .inl (cell_commit_of_not_held held)

theorem respects_rollback (t : τ) (T : Table κ τ ρ) : T.Respects t (T.rollback t) := by
  intro k
  by_cases held : T.holder k = some t
  · exact .inr ⟨by simp [free, Cell.free, show (T.cell k).holder = some t from held],
      .inl (by simp [holder_rollback, held])⟩
  · exact .inl (cell_rollback_of_not_held held)

theorem Keeps.refl (t : τ) (T : Table κ τ ρ) : T.Keeps t T := fun _ => ⟨fun _ => rfl, fun h => h⟩

theorem Keeps.trans {t : τ} {A B C : Table κ τ ρ} (first : A.Keeps t B) (second : B.Keeps t C) :
    A.Keeps t C := by
  intro k
  refine ⟨fun held => ?_, fun other => (second k).2 ((first k).2 other)⟩
  have same := (first k).1 held
  rw [(second k).1 (by simpa [holder, same] using held), same]

/-- The other side of `Respects`: another transaction's rows are kept. -/
theorem Respects.keeps {t u : τ} {T T' : Table κ τ ρ} (h : T.Respects t T') (other : u ≠ t) :
    T.Keeps u T' := by
  intro k
  rcases h k with same | ⟨free, after⟩
  · exact ⟨fun _ => same, fun notMine => by simpa [holder, same] using notMine⟩
  · refine ⟨fun held => ?_, fun _ mine => ?_⟩
    · rcases holder_of_free free with none | own
      · simp [none] at held
      · exact absurd (Option.some.inj (held.symm.trans own)) other
    · rcases after with none | own
      · simp [none] at mine
      · exact other (Option.some.inj (mine.symm.trans own))

theorem Keeps.cell {t : τ} {T T' : Table κ τ ρ} {k : κ} (h : T.Keeps t T')
    (held : T.holder k = some t) : T'.cell k = T.cell k := (h k).1 held

theorem Keeps.not_held {t : τ} {T T' : Table κ τ ρ} {k : κ} (h : T.Keeps t T')
    (other : T.holder k ≠ some t) : T'.holder k ≠ some t := (h k).2 other

theorem Keeps.held_iff {t : τ} {T T' : Table κ τ ρ} {k : κ} (h : T.Keeps t T') :
    T'.holder k = some t ↔ T.holder k = some t := by
  constructor
  · intro after
    by_contra before
    exact h.not_held before after
  · intro before
    simpa [holder, h.cell before] using before

/-- A statement about the rows a transaction holds survives the steps of the others. -/
theorem Keeps.cell_of_held {t : τ} {T T' : Table κ τ ρ} {k : κ} (h : T.Keeps t T')
    (held : T'.holder k = some t) : T.holder k = some t ∧ T'.cell k = T.cell k :=
  ⟨h.held_iff.mp held, h.cell (h.held_iff.mp held)⟩

/-- `t` holds no row of the table. -/
def HoldsNone (t : τ) (T : Table κ τ ρ) : Prop := ∀ k, T.holder k ≠ some t

/-- The only row of the table that `t` may hold is `k`. -/
def HoldsOnly (t : τ) (k : κ) (T : Table κ τ ρ) : Prop := ∀ j, T.holder j = some t → j = k

theorem Keeps.holdsNone {t : τ} {T T' : Table κ τ ρ} (h : T.Keeps t T') (none : HoldsNone t T) :
    HoldsNone t T' := fun k => h.not_held (none k)

theorem Keeps.holdsOnly {t : τ} {T T' : Table κ τ ρ} {k : κ} (h : T.Keeps t T')
    (only : HoldsOnly t k T) : HoldsOnly t k T' := fun j held => only j (h.held_iff.mp held)

theorem HoldsNone.only {t : τ} {T : Table κ τ ρ} (h : HoldsNone t T) (k : κ) : HoldsOnly t k T :=
  fun j held => absurd held (h j)

theorem HoldsOnly.put {t : τ} {T : Table κ τ ρ} {k : κ} (h : HoldsOnly t k T) (r : Option ρ) :
    HoldsOnly t k (T.put t k r) := by
  intro j held
  by_contra other
  exact other (h j (by rwa [holder_put_other other] at held))

theorem HoldsNone.view {t : τ} {T : Table κ τ ρ} (h : HoldsNone t T) (k : κ) :
    T.view t k = T.committed k := view_of_not_held (h k)

theorem HoldsNone.committed_commit {t : τ} {T : Table κ τ ρ} (h : HoldsNone t T) (k : κ) :
    (T.commit t).committed k = T.committed k := (T.committed_commit t k).trans (h.view k)

theorem HoldsOnly.committed_commit {t : τ} {T : Table κ τ ρ} {k j : κ} (h : HoldsOnly t k T)
    (other : j ≠ k) : (T.commit t).committed j = T.committed j :=
  (T.committed_commit t j).trans (view_of_not_held fun held => other (h j held))

/-! ## Row laws -/

/-- Every prepared version is a lawful successor of the committed one. -/
def Follows (law : RowLaw κ ρ) (T : Table κ τ ρ) : Prop :=
  ∀ k t, T.holder k = some t → law.rel k (T.committed k) (T.pending k)

/-- The committed versions of `T'` are lawful successors of those of `T`. -/
def Evolves (law : RowLaw κ ρ) (T T' : Table κ τ ρ) : Prop :=
  ∀ k, law.rel k (T.committed k) (T'.committed k)

theorem Evolves.refl (law : RowLaw κ ρ) (T : Table κ τ ρ) : T.Evolves law T :=
  fun k => law.refl k _

theorem Evolves.trans {law : RowLaw κ ρ} {A B C : Table κ τ ρ} (first : A.Evolves law B)
    (second : B.Evolves law C) : A.Evolves law C :=
  fun k => law.trans k (first k) (second k)

theorem Follows.view {law : RowLaw κ ρ} {T : Table κ τ ρ} (h : T.Follows law) (t : τ) (k : κ) :
    law.rel k (T.committed k) (T.view t k) := by
  by_cases held : T.holder k = some t
  · simpa [view_of_held held] using h k t held
  · simpa [view_of_not_held held] using law.refl k _

theorem Follows.put {law : RowLaw κ ρ} {T : Table κ τ ρ} (h : T.Follows law) {t : τ} {k : κ}
    {r : Option ρ} (lawful : law.rel k (T.committed k) r) : (T.put t k r).Follows law := by
  intro j u held
  by_cases same : j = k
  · subst same
    simpa using lawful
  · simpa [pending_put_other same] using h j u (by simpa [holder_put_other same] using held)

theorem pending_of_cell {T T' : Table κ τ ρ} {k : κ} (h : T'.cell k = T.cell k) :
    T'.pending k = T.pending k := congrArg Cell.pending h

theorem committed_of_cell {T T' : Table κ τ ρ} {k : κ} (h : T'.cell k = T.cell k) :
    T'.committed k = T.committed k := congrArg Cell.committed h

theorem holder_of_cell {T T' : Table κ τ ρ} {k : κ} (h : T'.cell k = T.cell k) :
    T'.holder k = T.holder k := congrArg Cell.holder h

theorem holder_commit_eq_some {t u : τ} {T : Table κ τ ρ} {k : κ}
    (h : (T.commit t).holder k = some u) : T.holder k = some u ∧ T.holder k ≠ some t := by
  rw [holder_commit] at h
  split at h
  · cases h
  · exact ⟨h, by assumption⟩

theorem holder_rollback_eq_some {t u : τ} {T : Table κ τ ρ} {k : κ}
    (h : (T.rollback t).holder k = some u) : T.holder k = some u ∧ T.holder k ≠ some t := by
  rw [holder_rollback] at h
  split at h
  · cases h
  · exact ⟨h, by assumption⟩

theorem Follows.commit {law : RowLaw κ ρ} {T : Table κ τ ρ} (h : T.Follows law) (t : τ) :
    (T.commit t).Follows law := by
  intro k u held
  obtain ⟨before, other⟩ := holder_commit_eq_some held
  have same := cell_commit_of_not_held other
  rw [pending_of_cell same, committed_of_cell same]
  exact h k u before

theorem Follows.rollback {law : RowLaw κ ρ} {T : Table κ τ ρ} (h : T.Follows law) (t : τ) :
    (T.rollback t).Follows law := by
  intro k u held
  obtain ⟨before, other⟩ := holder_rollback_eq_some held
  have same := cell_rollback_of_not_held other
  rw [pending_of_cell same, committed_of_cell same]
  exact h k u before

theorem Follows.commit_evolves {law : RowLaw κ ρ} {T : Table κ τ ρ} (h : T.Follows law) (t : τ) :
    T.Evolves law (T.commit t) := fun k => by simpa using h.view t k

end Table

end SaasTemplate.Isolation
