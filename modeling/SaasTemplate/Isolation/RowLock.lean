import Mathlib.Logic.Function.Basic
import Mathlib.Data.List.Dedup

/-! # Rows under READ COMMITTED

A cell is one row: its committed version and, while a transaction holds the row
lock, that transaction's own version. Plain reads never wait and see the committed
version (or the reader's own); writing and locking reads need the row lock, which
is kept until the transaction ends. A table is a family of cells together with the
keys ever used in it, so that a query or an index can look through its rows.
-/

set_option linter.unusedSectionVars false

namespace SaasTemplate.Isolation

/-- One row: the committed version, and the lock holder with its own version. -/
structure Cell (τ ρ : Type) where
  committed : Option ρ
  lock : Option (τ × Option ρ)
  deriving DecidableEq

namespace Cell

variable {τ ρ : Type} [DecidableEq τ]

/-- A row that does not exist and that nobody is writing. -/
def empty : Cell τ ρ := ⟨none, none⟩

/-- A committed row that nobody is writing. -/
def row (r : ρ) : Cell τ ρ := ⟨some r, none⟩

/-- The transaction that holds the row lock. -/
def holder (c : Cell τ ρ) : Option τ := c.lock.map (·.1)

/-- The lock holder's own version of the row. -/
def pending (c : Cell τ ρ) : Option ρ := c.lock.bind (·.2)

/-- May transaction `t` take the row lock now? -/
def free (t : τ) (c : Cell τ ρ) : Bool := c.holder.all (· = t)

/-- The version that transaction `t` sees: its own, or else the committed one. -/
def view (t : τ) (c : Cell τ ρ) : Option ρ :=
  if c.holder = some t then c.pending else c.committed

/-- Take the row lock with version `r` (the version just read, for `FOR UPDATE`). -/
def put (t : τ) (r : Option ρ) (c : Cell τ ρ) : Cell τ ρ := ⟨c.committed, some (t, r)⟩

/-- The end of transaction `t`: its version becomes the committed one. -/
def commit (t : τ) (c : Cell τ ρ) : Cell τ ρ :=
  if c.holder = some t then ⟨c.pending, none⟩ else c

/-- The end of transaction `t` without a trace. -/
def rollback (t : τ) (c : Cell τ ρ) : Cell τ ρ :=
  if c.holder = some t then ⟨c.committed, none⟩ else c

@[simp] theorem commit_empty (t : τ) : (empty : Cell τ ρ).commit t = empty := rfl
@[simp] theorem rollback_empty (t : τ) : (empty : Cell τ ρ).rollback t = empty := rfl
@[simp] theorem holder_put (t : τ) (r : Option ρ) (c : Cell τ ρ) : (c.put t r).holder = some t := rfl
@[simp] theorem pending_put (t : τ) (r : Option ρ) (c : Cell τ ρ) : (c.put t r).pending = r := rfl
@[simp] theorem committed_put (t : τ) (r : Option ρ) (c : Cell τ ρ) :
    (c.put t r).committed = c.committed := rfl
@[simp] theorem view_put (t : τ) (r : Option ρ) (c : Cell τ ρ) : (c.put t r).view t = r := by
  simp [view]

theorem holder_of_free {t : τ} {c : Cell τ ρ} (h : c.free t = true) :
    c.holder = none ∨ c.holder = some t := by
  cases held : c.holder with
  | none => exact .inl rfl
  | some u => simp [free, held] at h; exact .inr (congrArg some h)

theorem view_of_free_of_not_held {t : τ} {c : Cell τ ρ} (h : c.holder ≠ some t) :
    c.view t = c.committed := by
  simp [view, h]

theorem view_of_held {t : τ} {c : Cell τ ρ} (h : c.holder = some t) : c.view t = c.pending := by
  simp [view, h]

theorem holder_commit (t : τ) (c : Cell τ ρ) :
    (c.commit t).holder = if c.holder = some t then none else c.holder := by
  unfold commit
  split <;> rfl

theorem holder_rollback (t : τ) (c : Cell τ ρ) :
    (c.rollback t).holder = if c.holder = some t then none else c.holder := by
  unfold rollback
  split <;> rfl

/-- After its own commit a transaction finds what it saw before. -/
theorem committed_commit (t : τ) (c : Cell τ ρ) : (c.commit t).committed = c.view t := by
  unfold commit view
  split <;> rfl

theorem view_commit (t : τ) (c : Cell τ ρ) : (c.commit t).view t = c.view t := by
  by_cases held : c.holder = some t
  · have gone : (c.commit t).holder ≠ some t := by simp [holder_commit, held]
    rw [view_of_free_of_not_held gone, committed_commit]
  · simp [commit, held]

@[simp] theorem committed_rollback (t : τ) (c : Cell τ ρ) :
    (c.rollback t).committed = c.committed := by
  unfold rollback
  split <;> rfl

theorem commit_of_not_held {t : τ} {c : Cell τ ρ} (h : c.holder ≠ some t) : c.commit t = c := by
  simp [commit, h]

theorem rollback_of_not_held {t : τ} {c : Cell τ ρ} (h : c.holder ≠ some t) :
    c.rollback t = c := by
  simp [rollback, h]

end Cell

/-- The rows of a table, and the keys ever used in it. -/
structure Table (κ τ ρ : Type) where
  keys : List κ
  cell : κ → Cell τ ρ
  nodup : keys.Nodup
  covers : ∀ k, k ∉ keys → cell k = .empty

namespace Table

section Basics

variable {κ τ ρ : Type} [DecidableEq κ] [DecidableEq τ]

/-- The table with the given committed rows. -/
def ofRows (rows : List (κ × ρ)) : Table κ τ ρ where
  keys := (rows.map (·.1)).dedup
  cell k := match rows.lookup k with
    | some r => .row r
    | none => .empty
  nodup := List.nodup_dedup _
  covers k absent := by
    have missing : rows.lookup k = none := by
      rw [List.lookup_eq_none_iff]
      intro row member
      have differs : k ≠ row.1 := fun same =>
        absent (List.mem_dedup.mpr (same ▸ List.mem_map_of_mem member))
      simpa using differs
    simp only [missing]

/-- The committed version of a row. -/
def committed (T : Table κ τ ρ) (k : κ) : Option ρ := (T.cell k).committed

/-- The version of a row that its lock holder has prepared. -/
def pending (T : Table κ τ ρ) (k : κ) : Option ρ := (T.cell k).pending

/-- The version of a row that `t` sees. -/
def view (t : τ) (T : Table κ τ ρ) (k : κ) : Option ρ := (T.cell k).view t

def holder (T : Table κ τ ρ) (k : κ) : Option τ := (T.cell k).holder

def free (t : τ) (T : Table κ τ ρ) (k : κ) : Bool := (T.cell k).free t

/-- Lock row `k` for `t` with version `r`. -/
def put (t : τ) (k : κ) (r : Option ρ) (T : Table κ τ ρ) : Table κ τ ρ where
  keys := if k ∈ T.keys then T.keys else T.keys ++ [k]
  cell := Function.update T.cell k ((T.cell k).put t r)
  nodup := by
    split
    · exact T.nodup
    · rename_i new
      exact T.nodup.append (List.nodup_singleton k) (by simpa using new)
  covers j absent := by
    have other : j ≠ k := by
      rintro rfl
      split at absent <;> simp_all
    have missing : j ∉ T.keys := by
      split at absent <;> simp_all
    rw [Function.update_of_ne other, T.covers j missing]

def commit (t : τ) (T : Table κ τ ρ) : Table κ τ ρ where
  keys := T.keys
  cell k := (T.cell k).commit t
  nodup := T.nodup
  covers k absent := by rw [T.covers k absent, Cell.commit_empty]

def rollback (t : τ) (T : Table κ τ ρ) : Table κ τ ρ where
  keys := T.keys
  cell k := (T.cell k).rollback t
  nodup := T.nodup
  covers k absent := by rw [T.covers k absent, Cell.rollback_empty]

/-- The rows that a plain `SELECT ... WHERE p` of `t` returns. -/
def select (t : τ) (p : κ → ρ → Bool) (T : Table κ τ ρ) : List (κ × ρ) :=
  T.keys.filterMap fun k => ((T.view t k).filter (p k)).map fun r => (k, r)

/-- `SELECT ... WHERE p LIMIT 1`. -/
def selectOne (t : τ) (p : κ → ρ → Bool) (T : Table κ τ ρ) : Option (κ × ρ) := (T.select t p).head?

theorem mem_keys_of_view {t : τ} {T : Table κ τ ρ} {k : κ} {r : ρ} (h : T.view t k = some r) :
    k ∈ T.keys := by
  by_contra absent
  simp [view, T.covers k absent, Cell.view, Cell.empty, Cell.holder] at h

theorem mem_keys_of_holder {T : Table κ τ ρ} {k : κ} {t : τ} (h : T.holder k = some t) :
    k ∈ T.keys := by
  by_contra absent
  simp [holder, T.covers k absent, Cell.empty, Cell.holder] at h

theorem mem_keys_of_committed {T : Table κ τ ρ} {k : κ} {r : ρ} (h : T.committed k = some r) :
    k ∈ T.keys := by
  by_contra absent
  simp [committed, T.covers k absent, Cell.empty] at h

theorem mem_select {t : τ} {p : κ → ρ → Bool} {T : Table κ τ ρ} {k : κ} {r : ρ} :
    (k, r) ∈ T.select t p ↔ T.view t k = some r ∧ p k r = true := by
  simp only [select, List.mem_filterMap, Option.map_eq_some_iff, Prod.mk.injEq,
    Option.filter_eq_some_iff]
  constructor
  · rintro ⟨j, -, s, ⟨seen, holds⟩, rfl, rfl⟩
    exact ⟨seen, holds⟩
  · rintro ⟨seen, holds⟩
    exact ⟨k, mem_keys_of_view seen, r, ⟨seen, holds⟩, rfl, rfl⟩

/-- A query returns each row once. -/
theorem select_nodup (t : τ) (p : κ → ρ → Bool) (T : Table κ τ ρ) :
    ((T.select t p).map (·.1)).Nodup := by
  have keys : ∀ ks : List κ, ((ks.filterMap fun k =>
      ((T.view t k).filter (p k)).map fun r => (k, r)).map (·.1)).Sublist ks := by
    intro ks
    induction ks with
    | nil => simp
    | cons k rest ih =>
        cases found : (T.view t k).filter (p k) with
        | none => simpa [found] using ih.cons k
        | some r => simpa [found] using ih.cons_cons k
  exact (keys T.keys).nodup T.nodup

theorem selectOne_spec {t : τ} {p : κ → ρ → Bool} {T : Table κ τ ρ} {k : κ} {r : ρ}
    (h : T.selectOne t p = some (k, r)) : T.view t k = some r ∧ p k r = true :=
  mem_select.mp (List.mem_of_mem_head? h)

theorem selectOne_none {t : τ} {p : κ → ρ → Bool} {T : Table κ τ ρ}
    (h : T.selectOne t p = none) {k : κ} {r : ρ} (seen : T.view t k = some r) : p k r = false := by
  by_contra holds
  have member : (k, r) ∈ T.select t p := mem_select.mpr ⟨seen, by simpa using holds⟩
  simp [List.head?_eq_none_iff.mp h] at member

theorem selectOne_isSome {t : τ} {p : κ → ρ → Bool} {T : Table κ τ ρ} {k : κ} {r : ρ}
    (seen : T.view t k = some r) (holds : p k r = true) : (T.selectOne t p).isSome = true := by
  cases found : T.selectOne t p with
  | none => simp [selectOne_none found seen] at holds
  | some row => rfl

@[simp] theorem cell_put_same (t : τ) (k : κ) (r : Option ρ) (T : Table κ τ ρ) :
    (T.put t k r).cell k = (T.cell k).put t r := by
  simp [put]

theorem cell_put_other {t : τ} {k j : κ} {r : Option ρ} {T : Table κ τ ρ} (h : j ≠ k) :
    (T.put t k r).cell j = T.cell j := by
  simp [put, Function.update_of_ne h]

@[simp] theorem committed_put (t : τ) (k j : κ) (r : Option ρ) (T : Table κ τ ρ) :
    (T.put t k r).committed j = T.committed j := by
  by_cases same : j = k
  · subst same; simp [committed]
  · simp [committed, cell_put_other same]

@[simp] theorem holder_put_same (t : τ) (k : κ) (r : Option ρ) (T : Table κ τ ρ) :
    (T.put t k r).holder k = some t := by simp [holder]

@[simp] theorem pending_put_same (t : τ) (k : κ) (r : Option ρ) (T : Table κ τ ρ) :
    (T.put t k r).pending k = r := by simp [pending]

theorem holder_put_other {t : τ} {k j : κ} {r : Option ρ} {T : Table κ τ ρ} (h : j ≠ k) :
    (T.put t k r).holder j = T.holder j := by simp [holder, cell_put_other h]

theorem pending_put_other {t : τ} {k j : κ} {r : Option ρ} {T : Table κ τ ρ} (h : j ≠ k) :
    (T.put t k r).pending j = T.pending j := by simp [pending, cell_put_other h]

theorem view_put_other {t u : τ} {k j : κ} {r : Option ρ} {T : Table κ τ ρ} (h : j ≠ k) :
    (T.put t k r).view u j = T.view u j := by simp [view, cell_put_other h]

@[simp] theorem view_put_same (t : τ) (k : κ) (r : Option ρ) (T : Table κ τ ρ) :
    (T.put t k r).view t k = r := by simp [view]

/-- Writing a row that `t` sees adds no key. -/
theorem keys_put {t : τ} {k : κ} {row : ρ} {r : Option ρ} {T : Table κ τ ρ}
    (seen : T.view t k = some row) : (T.put t k r).keys = T.keys :=
  if_pos (mem_keys_of_view seen)

/-- A query depends on the keys and on what it finds of each row. -/
theorem select_congr {t : τ} {p : κ → ρ → Bool} {T T' : Table κ τ ρ} (keys : T'.keys = T.keys)
    (same : ∀ k, (T'.view t k).filter (p k) = (T.view t k).filter (p k)) :
    T'.select t p = T.select t p := by
  simp only [select, keys, same]

theorem view_commit (t : τ) (T : Table κ τ ρ) (k : κ) : (T.commit t).view t k = T.view t k :=
  (T.cell k).view_commit t

@[simp] theorem cell_commit (t : τ) (T : Table κ τ ρ) (k : κ) :
    (T.commit t).cell k = (T.cell k).commit t := rfl

@[simp] theorem cell_rollback (t : τ) (T : Table κ τ ρ) (k : κ) :
    (T.rollback t).cell k = (T.cell k).rollback t := rfl

@[simp] theorem committed_commit (t : τ) (T : Table κ τ ρ) (k : κ) :
    (T.commit t).committed k = T.view t k := (T.cell k).committed_commit t

@[simp] theorem committed_rollback (t : τ) (T : Table κ τ ρ) (k : κ) :
    (T.rollback t).committed k = T.committed k := (T.cell k).committed_rollback t

theorem view_of_held {t : τ} {T : Table κ τ ρ} {k : κ} (h : T.holder k = some t) :
    T.view t k = T.pending k := Cell.view_of_held h

theorem view_of_not_held {t : τ} {T : Table κ τ ρ} {k : κ} (h : T.holder k ≠ some t) :
    T.view t k = T.committed k := Cell.view_of_free_of_not_held h

theorem holder_of_free {t : τ} {T : Table κ τ ρ} {k : κ} (h : T.free t k = true) :
    T.holder k = none ∨ T.holder k = some t := Cell.holder_of_free h

theorem cell_commit_of_not_held {t : τ} {T : Table κ τ ρ} {k : κ} (h : T.holder k ≠ some t) :
    (T.commit t).cell k = T.cell k := Cell.commit_of_not_held h

theorem cell_rollback_of_not_held {t : τ} {T : Table κ τ ρ} {k : κ} (h : T.holder k ≠ some t) :
    (T.rollback t).cell k = T.cell k := Cell.rollback_of_not_held h

theorem holder_commit (t : τ) (T : Table κ τ ρ) (k : κ) :
    (T.commit t).holder k = if T.holder k = some t then none else T.holder k :=
  Cell.holder_commit t (T.cell k)

theorem holder_rollback (t : τ) (T : Table κ τ ρ) (k : κ) :
    (T.rollback t).holder k = if T.holder k = some t then none else T.holder k :=
  Cell.holder_rollback t (T.cell k)

end Basics

end Table

end SaasTemplate.Isolation
