import SaasTemplate.Isolation.RowLaw

/-! # Unique indexes and the writing statements

`entries r` lists what row `r` contributes to the unique indexes of its table. A
write first takes the row lock; an entry that another row holds makes the statement
fail, and one that an undecided version of another row holds makes it wait.
-/

set_option linter.unusedSectionVars false

namespace SaasTemplate.Isolation.Table

variable {κ τ ρ ι : Type} [DecidableEq κ] [DecidableEq τ] [DecidableEq ι]

/-- The index entries of a table that has only its primary key. -/
def unindexed (_ : ρ) : List Empty := []

/-- Two versions that no unique index allows side by side. -/
def Clash (entries : ρ → List ι) (a b : Option ρ) : Prop :=
  ∃ r s i, a = some r ∧ b = some s ∧ i ∈ entries r ∧ i ∈ entries s

def clashes (entries : ρ → List ι) (r : ρ) (b : Option ρ) : Bool :=
  b.any fun s => (entries r).any (· ∈ entries s)

theorem clashes_iff {entries : ρ → List ι} {r : ρ} {b : Option ρ} :
    clashes entries r b = true ↔ Clash entries b (some r) := by
  cases b with
  | none => simp [clashes, Clash]
  | some s => simp [clashes, Clash, and_comm]

theorem Clash.symm {entries : ρ → List ι} {a b : Option ρ} (h : Clash entries a b) :
    Clash entries b a := by
  obtain ⟨r, s, i, left, right, first, second⟩ := h
  exact ⟨s, r, i, right, left, second, first⟩

/-- Does the index check for version `r` of row `k` wait for another transaction? -/
def waits (entries : ρ → List ι) (t : τ) (k : κ) (r : ρ) (T : Table κ τ ρ) : Bool :=
  T.keys.any fun j => j ≠ k && !T.free t j &&
    (clashes entries r (T.committed j) || clashes entries r (T.pending j))

/-- Does version `r` of row `k` violate a unique index? -/
def collides (entries : ρ → List ι) (t : τ) (k : κ) (r : ρ) (T : Table κ τ ρ) : Bool :=
  T.keys.any fun j => j ≠ k && clashes entries r (T.view t j)

/-- The unique indexes hold, now and whichever of the open transactions commit: two
    rows may only share an entry as the old version of one and the new version of the
    other inside a single transaction. -/
structure Unique (entries : ρ → List ι) (T : Table κ τ ρ) : Prop where
  committed : ∀ {j k}, j ≠ k → ¬Clash entries (T.committed j) (T.committed k)
  pending : ∀ {j k}, j ≠ k → ¬Clash entries (T.pending j) (T.pending k)
  handover : ∀ {j k}, j ≠ k → Clash entries (T.committed j) (T.pending k) →
    T.holder j = T.holder k

theorem held_of_pending {T : Table κ τ ρ} {k : κ} {r : ρ} (h : T.pending k = some r) :
    ∃ t, T.holder k = some t := by
  cases lock : (T.cell k).lock with
  | none => simp [Table.pending, Cell.pending, lock] at h
  | some own => exact ⟨own.1, by simp [holder, Cell.holder, lock]⟩

theorem Clash.right_some {entries : ρ → List ι} {a b : Option ρ} (h : Clash entries a b) :
    ∃ s, b = some s := by
  obtain ⟨_, s, _, -, right, -⟩ := h
  exact ⟨s, right⟩

theorem Clash.left_some {entries : ρ → List ι} {a b : Option ρ} (h : Clash entries a b) :
    ∃ r, a = some r := h.symm.right_some

theorem not_clash_none {entries : ρ → List ι} {a : Option ρ} : ¬Clash entries a none := by
  rintro ⟨_, _, _, -, ⟨⟩, -⟩

theorem mem_keys_of_pending {T : Table κ τ ρ} {k : κ} {r : ρ} (h : T.pending k = some r) :
    k ∈ T.keys := by
  obtain ⟨t, held⟩ := held_of_pending h
  exact mem_keys_of_holder held

/-- Version `r` of row `k`, written by `t`, fits the other rows: no undecided version
    shares an entry with it, and a committed one only if `t` is about to replace it. -/
def Fits (entries : ρ → List ι) (t : τ) (k : κ) (r : Option ρ) (T : Table κ τ ρ) : Prop :=
  ∀ j, j ≠ k → ¬Clash entries (T.pending j) r ∧
    (Clash entries (T.committed j) r → T.holder j = some t)

theorem fits_none {entries : ρ → List ι} {t : τ} {k : κ} {T : Table κ τ ρ} :
    T.Fits entries t k none :=
  fun _ _ => ⟨not_clash_none, fun clash => absurd clash not_clash_none⟩

/-- The index check of a write makes the new version fit. -/
theorem fits_of_check {entries : ρ → List ι} {t : τ} {k : κ} {r : ρ} {T : Table κ τ ρ}
    (ready : T.waits entries t k r = false) (fine : T.collides entries t k r = false) :
    T.Fits entries t k (some r) := by
  intro j other
  have quiet : ∀ b, (b = T.committed j ∨ b = T.pending j) → Clash entries b (some r) →
      T.free t j = true := by
    intro b which clash
    by_contra notFree
    have busy : T.free t j = false := by simpa using notFree
    obtain ⟨s, here⟩ := clash.left_some
    have member : j ∈ T.keys := by
      rcases which with rfl | rfl
      · exact mem_keys_of_committed here
      · exact mem_keys_of_pending here
    have clashing := clashes_iff.mpr clash
    have waiting : T.waits entries t k r = true := by
      refine List.any_eq_true.mpr ⟨j, member, ?_⟩
      rcases which with rfl | rfl <;> simp [other, busy, clashing]
    simp [waiting] at ready
  have unseen : ¬Clash entries (T.view t j) (some r) := by
    intro clash
    obtain ⟨s, here⟩ := clash.left_some
    have hit : T.collides entries t k r = true :=
      List.any_eq_true.mpr ⟨j, mem_keys_of_view here, by simp [other, clashes_iff.mpr clash]⟩
    simp [hit] at fine
  refine ⟨fun clash => ?_, fun clash => ?_⟩
  · obtain ⟨s, here⟩ := clash.left_some
    obtain ⟨u, held⟩ := held_of_pending here
    rcases holder_of_free (quiet _ (.inr rfl) clash) with none | own
    · simp [held] at none
    · exact unseen (by simpa [view_of_held own] using clash)
  · rcases holder_of_free (quiet _ (.inl rfl) clash) with none | own
    · exact absurd (by simpa [view_of_not_held (show T.holder j ≠ some t by simp [none])]
        using clash) unseen
    · exact own

theorem Unique.put {entries : ρ → List ι} {T : Table κ τ ρ} (h : T.Unique entries) {t : τ} {k : κ}
    (free : T.free t k = true) {r : Option ρ} (fits : T.Fits entries t k r) :
    (T.put t k r).Unique entries := by
  refine ⟨fun differ => by simpa using h.committed differ, ?_, ?_⟩
  · intro i j differ clash
    by_cases left : i = k
    · subst left
      rw [pending_put_same, pending_put_other (Ne.symm differ)] at clash
      exact (fits j (Ne.symm differ)).1 clash.symm
    · by_cases right : j = k
      · subst right
        rw [pending_put_same, pending_put_other differ] at clash
        exact (fits i differ).1 clash
      · rw [pending_put_other left, pending_put_other right] at clash
        exact h.pending differ clash
  · intro i j differ clash
    rw [committed_put] at clash
    by_cases right : j = k
    · subst right
      rw [pending_put_same] at clash
      rw [holder_put_same, holder_put_other differ]
      exact (fits i differ).2 clash
    · rw [pending_put_other right] at clash
      rw [holder_put_other right]
      by_cases left : i = k
      · subst left
        -- the old version of the row now written: whoever prepared row `j` held this row
        rw [holder_put_same]
        have same := h.handover differ clash
        obtain ⟨s, here⟩ := clash.right_some
        obtain ⟨u, held⟩ := held_of_pending here
        rcases holder_of_free free with none | own
        · simp [none, held] at same
        · rw [← same, own]
      · rw [holder_put_other left]
        exact h.handover differ clash

theorem view_eq (t : τ) (T : Table κ τ ρ) (k : κ) :
    T.holder k = some t ∧ T.view t k = T.pending k ∨
      T.holder k ≠ some t ∧ T.view t k = T.committed k := by
  by_cases held : T.holder k = some t
  · exact .inl ⟨held, view_of_held held⟩
  · exact .inr ⟨held, view_of_not_held held⟩

/-- In the eyes of one transaction the unique indexes always hold. -/
theorem Unique.view {entries : ρ → List ι} {T : Table κ τ ρ} (h : T.Unique entries) (t : τ)
    {j k : κ} (differ : j ≠ k) : ¬Clash entries (T.view t j) (T.view t k) := by
  intro clash
  rcases view_eq t T j with ⟨heldJ, seenJ⟩ | ⟨notJ, seenJ⟩ <;>
    rcases view_eq t T k with ⟨heldK, seenK⟩ | ⟨notK, seenK⟩ <;>
      rw [seenJ, seenK] at clash
  · exact h.pending differ clash
  · exact notK (h.handover (Ne.symm differ) clash.symm ▸ heldJ)
  · exact notJ (h.handover differ clash ▸ heldK)
  · exact h.committed differ clash

/-- The version a transaction sees of a row it may lock fits as it is. -/
theorem Unique.fits_view {entries : ρ → List ι} {T : Table κ τ ρ} (h : T.Unique entries) {t : τ}
    {k : κ} (free : T.free t k = true) : T.Fits entries t k (T.view t k) := by
  intro j differ
  rcases view_eq t T k with ⟨held, seen⟩ | ⟨notHeld, seen⟩ <;> rw [seen]
  · exact ⟨h.pending differ, fun clash => (h.handover differ clash).trans held⟩
  · have unlocked : T.holder k = none := (holder_of_free free).resolve_right notHeld
    refine ⟨fun clash => ?_, fun clash => absurd clash (h.committed differ)⟩
    obtain ⟨s, here⟩ := clash.left_some
    obtain ⟨u, held⟩ := held_of_pending here
    have same := h.handover (Ne.symm differ) clash.symm
    simp [unlocked, held] at same

theorem pending_commit_eq_some {t : τ} {T : Table κ τ ρ} {k : κ} {r : ρ}
    (h : (T.commit t).pending k = some r) : T.holder k ≠ some t ∧ T.pending k = some r := by
  obtain ⟨u, held⟩ := held_of_pending h
  have other := (holder_commit_eq_some held).2
  exact ⟨other, by rwa [pending_of_cell (cell_commit_of_not_held other)] at h⟩

theorem pending_rollback_eq_some {t : τ} {T : Table κ τ ρ} {k : κ} {r : ρ}
    (h : (T.rollback t).pending k = some r) : T.holder k ≠ some t ∧ T.pending k = some r := by
  obtain ⟨u, held⟩ := held_of_pending h
  have other := (holder_rollback_eq_some held).2
  exact ⟨other, by rwa [pending_of_cell (cell_rollback_of_not_held other)] at h⟩

theorem Unique.commit {entries : ρ → List ι} {T : Table κ τ ρ} (h : T.Unique entries) (t : τ) :
    (T.commit t).Unique entries := by
  refine ⟨fun differ => by simpa using h.view t differ, fun differ clash => ?_,
    fun {j k} differ clash => ?_⟩
  · obtain ⟨r, left⟩ := clash.left_some
    obtain ⟨s, right⟩ := clash.right_some
    rw [left, right] at clash
    exact h.pending differ (by
      rwa [(pending_commit_eq_some left).2, (pending_commit_eq_some right).2])
  · obtain ⟨s, right⟩ := clash.right_some
    obtain ⟨otherK, here⟩ := pending_commit_eq_some right
    rw [right, ← here, committed_commit] at clash
    rcases view_eq t T j with ⟨-, seen⟩ | ⟨otherJ, seen⟩ <;> rw [seen] at clash
    · exact absurd clash (h.pending differ)
    · rw [holder_of_cell (cell_commit_of_not_held otherJ),
        holder_of_cell (cell_commit_of_not_held otherK)]
      exact h.handover differ clash

theorem Unique.rollback {entries : ρ → List ι} {T : Table κ τ ρ} (h : T.Unique entries) (t : τ) :
    (T.rollback t).Unique entries := by
  refine ⟨fun differ => by simpa using h.committed differ, fun differ clash => ?_,
    fun {j k} differ clash => ?_⟩
  · obtain ⟨r, left⟩ := clash.left_some
    obtain ⟨s, right⟩ := clash.right_some
    rw [left, right] at clash
    exact h.pending differ (by
      rwa [(pending_rollback_eq_some left).2, (pending_rollback_eq_some right).2])
  · obtain ⟨s, right⟩ := clash.right_some
    obtain ⟨otherK, here⟩ := pending_rollback_eq_some right
    rw [right, ← here, committed_rollback] at clash
    have same := h.handover differ clash
    rw [holder_of_cell (cell_rollback_of_not_held (same ▸ otherK)),
      holder_of_cell (cell_rollback_of_not_held otherK), same]

end SaasTemplate.Isolation.Table
