import SaasTemplate.Isolation.RowStatements

/-! # What the versions of a row say

A property of both versions of every row, and a relation between the committed version
and the one that the lock holder has prepared. A write has to establish them for one row;
commits, rollbacks and savepoints keep them.
-/

set_option linter.unusedSectionVars false

namespace SaasTemplate.Isolation.Table

variable {κ τ ρ : Type} [DecidableEq κ] [DecidableEq τ] {t u : τ} {k : κ} {r : ρ}
  {T : Table κ τ ρ} {saved : List (κ × Option ρ)}

/-- Both versions of every row meet `P`. -/
structure Versions (P : ρ → Prop) (T : Table κ τ ρ) : Prop where
  committed : ∀ k r, T.committed k = some r → P r
  pending : ∀ k r, T.pending k = some r → P r

/-- Rows are not deleted, and the version that a lock holder has prepared of a committed row
    is related to it. -/
def Prepared (rel : τ → ρ → ρ → Prop) (T : Table κ τ ρ) : Prop :=
  ∀ k t r, T.holder k = some t → T.committed k = some r → ∃ s, T.pending k = some s ∧ rel t r s

theorem cell_restore_other (h : (T.restore t saved).holder k = some u) (other : u ≠ t) :
    (T.restore t saved).cell k = T.cell k := by
  by_cases held : T.holder k = some t
  · rcases cell_restore_of_held saved held with ⟨r, -, is⟩ | is
    · simp only [holder, is, Cell.holder_put, Option.some.injEq] at h
      exact absurd h.symm other
    · have gone : ((T.cell k).rollback t).holder = none :=
        (Cell.holder_rollback t (T.cell k)).trans (if_pos held)
      simp [holder, is, gone] at h
  · exact cell_restore_of_not_held held

/-- Nothing was held at the savepoint. -/
@[simp] theorem restore_nil (t : τ) (T : Table κ τ ρ) : T.restore t [] = T.rollback t := by
  have cells : (T.restore t []).cell = (T.rollback t).cell := by
    funext k
    by_cases held : T.holder k = some t
    · simp [restore, rollback, held]
    · rw [cell_restore_of_not_held held, cell_rollback_of_not_held held]
  unfold restore rollback at cells ⊢
  simp only [mk.injEq, true_and]
  exact cells

/-- A rollback forgets the write of a row that was there. -/
theorem rollback_put {row : ρ} {v : Option ρ} (free : T.free t k = true)
    (seen : T.view t k = some row) : (T.put t k v).rollback t = T.rollback t := by
  have cells : ((T.put t k v).rollback t).cell = (T.rollback t).cell := by
    funext j
    by_cases same : j = k
    · subst same
      have undone : ((T.put t j v).rollback t).cell j = ⟨T.committed j, none⟩ := by
        simp [Cell.rollback, committed, Cell.put, Cell.holder]
      rw [undone]
      rcases holder_of_free free with unheld | own
      · have unlocked : (T.cell j).lock = none := by simpa [holder, Cell.holder] using unheld
        have same : (T.rollback t).cell j = T.cell j :=
          Cell.rollback_of_not_held (by simp [Cell.holder, unlocked])
        rw [same, committed, ← unlocked]
      · have held : (T.cell j).holder = some t := own
        simp [Cell.rollback, held, committed]
    · simp [cell_put_other same]
  have keys := keys_put (r := v) seen
  unfold rollback at cells ⊢
  simp only [mk.injEq]
  exact ⟨keys, cells⟩

theorem rollback_rollback (t : τ) (T : Table κ τ ρ) : (T.rollback t).rollback t = T.rollback t := by
  have cells : ((T.rollback t).rollback t).cell = (T.rollback t).cell := by
    funext j
    have gone : ((T.cell j).rollback t).holder ≠ some t := by
      rw [Cell.holder_rollback]
      split <;> simp_all
    exact Cell.rollback_of_not_held gone
  unfold rollback at cells ⊢
  simp only [mk.injEq, true_and]
  exact cells

theorem rollback_ofRows (t : τ) (rows : List (κ × ρ)) :
    (ofRows rows : Table κ τ ρ).rollback t = ofRows rows := by
  have cells : ((ofRows rows : Table κ τ ρ).rollback t).cell = (ofRows rows).cell := by
    funext k
    have open_ : ((ofRows rows : Table κ τ ρ).cell k).holder ≠ some t := by
      simp only [ofRows]
      split
      · intro is
        cases is
      · intro is
        cases is
    exact Cell.rollback_of_not_held open_
  unfold rollback ofRows at cells ⊢
  simp only [mk.injEq, true_and]
  exact cells

/-- Nothing is left to undo after a commit. -/
theorem rollback_commit (t : τ) (T : Table κ τ ρ) : (T.commit t).rollback t = T.commit t := by
  have cells : ((T.commit t).rollback t).cell = (T.commit t).cell := by
    funext j
    have gone : ((T.cell j).commit t).holder ≠ some t := by
      rw [Cell.holder_commit]
      split <;> simp_all
    exact Cell.rollback_of_not_held gone
  unfold rollback commit at cells ⊢
  simp only [mk.injEq, true_and]
  exact cells

theorem cell_commit_other (h : (T.commit t).holder k = some u) :
    (T.commit t).cell k = T.cell k :=
  cell_commit_of_not_held (holder_commit_eq_some h).2

theorem cell_rollback_other (h : (T.rollback t).holder k = some u) :
    (T.rollback t).cell k = T.cell k :=
  cell_rollback_of_not_held (holder_rollback_eq_some h).2

theorem HoldsNone.own_eq_nil (h : HoldsNone t T) : T.own t = [] := by
  refine List.eq_nil_iff_forall_not_mem.mpr ?_
  rintro ⟨k, r⟩ member
  exact h k (mem_own.mp member).1

section Versions

variable {P : ρ → Prop}

theorem Versions.view (h : T.Versions P) (seen : T.view t k = some r) : P r := by
  by_cases held : T.holder k = some t
  · exact h.pending k r (by rwa [view_of_held held] at seen)
  · exact h.committed k r (by rwa [view_of_not_held held] at seen)

theorem Versions.put (h : T.Versions P) (meets : P r) : (T.put t k (some r)).Versions P := by
  refine ⟨fun j s here => h.committed j s (by simpa using here), fun j s here => ?_⟩
  by_cases same : j = k
  · subst same
    simp only [pending_put_same, Option.some.injEq] at here
    exact here ▸ meets
  · exact h.pending j s (by rwa [pending_put_other same] at here)

theorem Versions.commit (h : T.Versions P) (t : τ) : (T.commit t).Versions P := by
  refine ⟨fun k r here => h.view (t := t) (k := k) (by simpa using here), fun k r here => ?_⟩
  obtain ⟨u, held⟩ := held_of_pending here
  exact h.pending k r (by rwa [pending_of_cell (cell_commit_other held)] at here)

theorem Versions.rollback (h : T.Versions P) (t : τ) : (T.rollback t).Versions P := by
  refine ⟨fun k r here => h.committed k r (by simpa using here), fun k r here => ?_⟩
  obtain ⟨u, held⟩ := held_of_pending here
  exact h.pending k r (by rwa [pending_of_cell (cell_rollback_other held)] at here)

theorem Versions.restore (h : T.Versions P)
    (kept : ∀ k r, T.holder k = some t → saved.lookup k = some (some r) → P r) :
    (T.restore t saved).Versions P := by
  refine ⟨fun k r here => h.committed k r (by simpa using here), fun k r here => ?_⟩
  obtain ⟨u, held⟩ := held_of_pending here
  by_cases own : u = t
  · subst own
    obtain ⟨mine, found⟩ := pending_restore held here
    exact kept k r mine found
  · exact h.pending k r (by rwa [pending_of_cell (cell_restore_other held own)] at here)

end Versions

section Prepared

variable {rel : τ → ρ → ρ → Prop}

/-- What `t` sees of a committed row is that version, or it has prepared the next one. -/
theorem Prepared.view (h : T.Prepared rel) (here : T.committed k = some r) (t : τ) :
    ∃ s, T.view t k = some s ∧ (s = r ∨ T.holder k = some t ∧ rel t r s) := by
  by_cases held : T.holder k = some t
  · obtain ⟨s, prepared, related⟩ := h k t r held here
    exact ⟨s, by rwa [view_of_held held], .inr ⟨held, related⟩⟩
  · exact ⟨r, by rwa [view_of_not_held held], .inl rfl⟩

/-- Whatever `t` sees of a committed row is related to it. -/
theorem Prepared.rel_of_view {s : ρ} (h : T.Prepared rel) (refl : ∀ r, rel t r r)
    (here : T.committed k = some r) (seen : T.view t k = some s) : rel t r s := by
  obtain ⟨q, found, is⟩ := h.view here t
  cases found.symm.trans seen
  rcases is with rfl | ⟨-, related⟩
  · exact refl _
  · exact related

theorem Prepared.put {s : ρ} (h : T.Prepared rel)
    (related : ∀ r, T.committed k = some r → rel t r s) : (T.put t k (some s)).Prepared rel := by
  intro j u r held here
  by_cases same : j = k
  · subst same
    simp only [holder_put_same, Option.some.injEq] at held
    exact ⟨s, by simp, held ▸ related r (by simpa using here)⟩
  · rw [holder_put_other same] at held
    rw [pending_put_other same]
    exact h j u r held (by simpa using here)

theorem Prepared.commit (h : T.Prepared rel) (t : τ) : (T.commit t).Prepared rel := by
  intro k u r held here
  have same := cell_commit_other held
  rw [pending_of_cell same]
  exact h k u r (holder_commit_eq_some held).1 (by rwa [committed_of_cell same] at here)

theorem Prepared.rollback (h : T.Prepared rel) (t : τ) : (T.rollback t).Prepared rel := by
  intro k u r held here
  have same := cell_rollback_other held
  rw [pending_of_cell same]
  exact h k u r (holder_rollback_eq_some held).1 (by rwa [committed_of_cell same] at here)

theorem Prepared.restore (h : T.Prepared rel)
    (kept : ∀ k v r, T.holder k = some t → saved.lookup k = some v → T.committed k = some r →
      ∃ s, v = some s ∧ rel t r s) :
    (T.restore t saved).Prepared rel := by
  intro k u r held here
  rw [committed_restore] at here
  by_cases own : u = t
  · subst own
    by_cases mine : T.holder k = some u
    · rcases cell_restore_of_held saved mine with ⟨v, found, is⟩ | is
      · obtain ⟨s, rfl, related⟩ := kept k v r mine found here
        exact ⟨s, by simp [pending, is], related⟩
      · have gone : ((T.cell k).rollback u).holder = none :=
          (Cell.holder_rollback u (T.cell k)).trans (if_pos mine)
        simp [holder, is, gone] at held
    · rw [holder_of_cell (cell_restore_of_not_held mine)] at held
      exact absurd held mine
  · have same := cell_restore_other held own
    rw [pending_of_cell same]
    exact h k u r (by rwa [holder_of_cell same] at held) here

end Prepared

end SaasTemplate.Isolation.Table
