import SaasTemplate.Isolation.UniqueIndex

/-! # The row statements of a transaction

Single-row `INSERT`, `UPDATE`, `DELETE` and locking `SELECT`. Each answers `none`
while it has to wait. Statements over several rows are loops over these: the rows
are found in a snapshot, and each is then looked at again under its lock.
-/

set_option linter.unusedSectionVars false

namespace SaasTemplate.Isolation.Table

variable {κ τ ρ ι ε : Type} [DecidableEq κ] [DecidableEq τ] [DecidableEq ι]

/-- Row `k` may be given version `r` by `t` now. -/
structure Writable (entries : ρ → List ι) (t : τ) (k : κ) (r : Option ρ) (T : Table κ τ ρ) : Prop where
  free : T.free t k = true
  fits : T.Fits entries t k r

/-- `UPDATE ... WHERE id = k AND p`, where `f` gives the new version of a row that
    meets `p`. It returns the new version, or nothing when no row matched. -/
def update (entries : ρ → List ι) (violation : ε) (t : τ) (k : κ) (f : ρ → Option ρ)
    (T : Table κ τ ρ) : Option (Except ε (Option ρ) × Table κ τ ρ) :=
  match (T.view t k).bind f with
  | none => some (.ok none, T)
  | some r =>
      if !T.free t k || T.waits entries t k r then none
      else if T.collides entries t k r then some (.error violation, T)
      else some (.ok (some r), T.put t k (some r))

/-- `INSERT` of row `k`. -/
def insert (entries : ρ → List ι) (violation : ε) (t : τ) (k : κ) (r : ρ)
    (T : Table κ τ ρ) : Option (Except ε Unit × Table κ τ ρ) :=
  if !T.free t k || T.waits entries t k r then none
  else if (T.view t k).isSome || T.collides entries t k r then some (.error violation, T)
  else some (.ok (), T.put t k (some r))

/-- `DELETE ... WHERE id = k AND p`, returning the deleted row. -/
def delete (t : τ) (k : κ) (p : ρ → Bool) (T : Table κ τ ρ) : Option (Option ρ × Table κ τ ρ) :=
  match (T.view t k).filter p with
  | none => some (none, T)
  | some r => if T.free t k then some (some r, T.put t k none) else none

/-- `SELECT ... WHERE id = k AND p FOR UPDATE`. -/
def lockRow (t : τ) (k : κ) (p : ρ → Bool) (T : Table κ τ ρ) : Option (Option ρ × Table κ τ ρ) :=
  match (T.view t k).filter p with
  | none => some (none, T)
  | some r => if T.free t k then some (some r, T.put t k (some r)) else none

/-- `SELECT ... WHERE id = k AND p FOR UPDATE SKIP LOCKED`. -/
def lockRowOrSkip (t : τ) (k : κ) (p : ρ → Bool) (T : Table κ τ ρ) : Option ρ × Table κ τ ρ :=
  match (T.view t k).filter p with
  | none => (none, T)
  | some r => if T.free t k then (some r, T.put t k (some r)) else (none, T)

theorem update_cases {entries : ρ → List ι} {violation : ε} {t : τ} {k : κ} {f : ρ → Option ρ}
    {T T' : Table κ τ ρ} {out : Except ε (Option ρ)}
    (h : T.update entries violation t k f = some (out, T')) :
    (T' = T ∧ (out = .error violation ∨ out = .ok none ∧ (T.view t k).bind f = none)) ∨
    ∃ row r, T.view t k = some row ∧ f row = some r ∧ T.Writable entries t k (some r) ∧
      T' = T.put t k (some r) ∧ out = .ok (some r) := by
  unfold update at h
  split at h
  · rename_i unmatched
    cases h
    exact .inl ⟨rfl, .inr ⟨rfl, unmatched⟩⟩
  · rename_i r matched
    obtain ⟨row, seen, changed⟩ := Option.bind_eq_some_iff.mp matched
    split at h
    · cases h
    · rename_i ready
      simp only [Bool.or_eq_true, Bool.not_eq_true', not_or, Bool.not_eq_true,
        Bool.not_eq_false] at ready
      split at h
      · cases h
        exact .inl ⟨rfl, .inl rfl⟩
      · rename_i fine
        cases h
        have fits : T.Fits entries t k (some r) := fits_of_check ready.2 (by simpa using fine)
        exact .inr ⟨row, r, seen, changed, ⟨ready.1, fits⟩, rfl, rfl⟩

theorem insert_cases {entries : ρ → List ι} {violation : ε} {t : τ} {k : κ} {r : ρ}
    {T T' : Table κ τ ρ} {out : Except ε Unit}
    (h : T.insert entries violation t k r = some (out, T')) :
    (T' = T ∧ out = .error violation) ∨
    (T.view t k = none ∧ T.Writable entries t k (some r) ∧ T' = T.put t k (some r) ∧
      out = .ok ()) := by
  unfold insert at h
  split at h
  · cases h
  · rename_i ready
    simp only [Bool.or_eq_true, Bool.not_eq_true', not_or, Bool.not_eq_true,
      Bool.not_eq_false] at ready
    split at h
    · cases h
      exact .inl ⟨rfl, rfl⟩
    · rename_i fine
      cases h
      simp only [Bool.or_eq_true, not_or, Bool.not_eq_true, Option.isSome_eq_false_iff,
        Option.isNone_iff_eq_none] at fine
      exact .inr ⟨fine.1, ⟨ready.1, fits_of_check ready.2 fine.2⟩, rfl, rfl⟩

theorem delete_cases {t : τ} {k : κ} {p : ρ → Bool} {T T' : Table κ τ ρ}
    {out : Option ρ} (h : T.delete t k p = some (out, T')) :
    (T' = T ∧ out = none ∧ (T.view t k).filter p = none) ∨
    ∃ row, T.view t k = some row ∧ p row = true ∧ T.free t k = true ∧
      T' = T.put t k none ∧ out = some row := by
  unfold delete at h
  split at h
  · rename_i unmatched
    cases h
    exact .inl ⟨rfl, rfl, unmatched⟩
  · rename_i row matched
    obtain ⟨seen, holds⟩ := Option.filter_eq_some_iff.mp matched
    split at h
    · rename_i free
      cases h
      exact .inr ⟨row, seen, holds, free, rfl, rfl⟩
    · cases h

theorem lockRow_cases {t : τ} {k : κ} {p : ρ → Bool} {T T' : Table κ τ ρ}
    {out : Option ρ} (h : T.lockRow t k p = some (out, T')) :
    (T' = T ∧ out = none ∧ (T.view t k).filter p = none) ∨
    ∃ row, T.view t k = some row ∧ p row = true ∧ T.free t k = true ∧
      T' = T.put t k (some row) ∧ out = some row := by
  unfold lockRow at h
  split at h
  · rename_i unmatched
    cases h
    exact .inl ⟨rfl, rfl, unmatched⟩
  · rename_i row matched
    obtain ⟨seen, holds⟩ := Option.filter_eq_some_iff.mp matched
    split at h
    · rename_i free
      cases h
      exact .inr ⟨row, seen, holds, free, rfl, rfl⟩
    · cases h

theorem lockRowOrSkip_cases {t : τ} {k : κ} {p : ρ → Bool} {T T' : Table κ τ ρ}
    {out : Option ρ} (h : T.lockRowOrSkip t k p = (out, T')) :
    (T' = T ∧ out = none) ∨
    ∃ row, T.view t k = some row ∧ p row = true ∧ T.free t k = true ∧
      T' = T.put t k (some row) ∧ out = some row := by
  unfold lockRowOrSkip at h
  split at h
  · cases h
    exact .inl ⟨rfl, rfl⟩
  · rename_i row matched
    obtain ⟨seen, holds⟩ := Option.filter_eq_some_iff.mp matched
    split at h
    · rename_i free
      cases h
      exact .inr ⟨row, seen, holds, free, rfl, rfl⟩
    · cases h
      exact .inl ⟨rfl, rfl⟩

/-! ## Both versions of a row -/

/-- Is row `k` there, so that its committed version and the one its lock holder has
    prepared both meet `p`? -/
def settled (p : ρ → Bool) (k : κ) (T : Table κ τ ρ) : Bool :=
  (T.committed k).any p && (T.cell k).lock.all fun held => held.2.any p

section Settled

variable {p : ρ → Bool} {j k : κ} {t : τ} {T : Table κ τ ρ}

theorem settled_of_cell {T' : Table κ τ ρ} (same : T'.cell k = T.cell k) :
    T'.settled p k = T.settled p k := by
  simp [settled, committed, same]

/-- Whoever looks at a settled row finds a version that meets `p`. -/
theorem view_of_settled (h : T.settled p k = true) (t : τ) : (T.view t k).any p = true := by
  simp only [settled, Bool.and_eq_true] at h
  unfold view Cell.view
  split
  · rename_i held
    obtain ⟨lock, locked, -⟩ := Option.map_eq_some_iff.mp held
    have prepared := h.2
    rw [locked, Option.all_some] at prepared
    simpa [Cell.pending, locked] using prepared
  · exact h.1

theorem settled_put_other {r : Option ρ} (other : j ≠ k) :
    (T.put t k r).settled p j = T.settled p j :=
  settled_of_cell (cell_put_other other)

theorem settled_put_same {r : ρ} (h : T.settled p k = true) (meets : p r = true) :
    (T.put t k (some r)).settled p k = true := by
  simp only [settled, Bool.and_eq_true] at h ⊢
  exact ⟨by simpa using h.1, by simpa [Cell.put] using meets⟩

theorem settled_commit (h : T.settled p k = true) : (T.commit t).settled p k = true := by
  by_cases mine : T.holder k = some t
  · have seen := view_of_settled h t
    simp only [settled, Bool.and_eq_true, cell_commit]
    refine ⟨by simpa using seen, ?_⟩
    have held : (T.cell k).holder = some t := mine
    simp [Cell.commit, held]
  · rwa [settled_of_cell (cell_commit_of_not_held mine)]

theorem settled_rollback (h : T.settled p k = true) : (T.rollback t).settled p k = true := by
  by_cases mine : T.holder k = some t
  · simp only [settled, Bool.and_eq_true, cell_rollback] at h ⊢
    have held : (T.cell k).holder = some t := mine
    exact ⟨by simpa using h.1, by simp [Cell.rollback, held]⟩
  · rwa [settled_of_cell (cell_rollback_of_not_held mine)]

end Settled

/-! ## Savepoints -/

/-- The rows that `t` holds, with its versions of them. -/
def own (t : τ) (T : Table κ τ ρ) : List (κ × Option ρ) :=
  T.keys.filterMap fun k => if T.holder k = some t then some (k, T.pending k) else none

/-- `ROLLBACK TO SAVEPOINT`: the rows that `t` held then get back the versions they had, and
    those it has locked since are free again. -/
def restore (t : τ) (saved : List (κ × Option ρ)) (T : Table κ τ ρ) : Table κ τ ρ where
  keys := T.keys
  cell k :=
    if T.holder k = some t then
      match saved.lookup k with
      | some r => (T.cell k).put t r
      | none => (T.cell k).rollback t
    else T.cell k
  nodup := T.nodup
  covers k absent := by
    have free : T.holder k ≠ some t := fun held => absent (mem_keys_of_holder held)
    simp [free, T.covers k absent]

section Savepoints

variable {t : τ} {k : κ} {saved : List (κ × Option ρ)} {T : Table κ τ ρ}

theorem cell_restore_of_not_held (h : T.holder k ≠ some t) :
    (T.restore t saved).cell k = T.cell k := by
  simp [restore, h]

theorem cell_restore_of_held (saved : List (κ × Option ρ)) (h : T.holder k = some t) :
    (∃ r, saved.lookup k = some r ∧ (T.restore t saved).cell k = (T.cell k).put t r) ∨
      (T.restore t saved).cell k = (T.cell k).rollback t := by
  cases found : saved.lookup k with
  | none => exact .inr (by simp [restore, h, found])
  | some r => exact .inl ⟨r, rfl, by simp [restore, h, found]⟩

@[simp] theorem committed_restore (t : τ) (saved : List (κ × Option ρ)) (T : Table κ τ ρ) (k : κ) :
    (T.restore t saved).committed k = T.committed k := by
  by_cases held : T.holder k = some t
  · rcases cell_restore_of_held saved held with ⟨r, -, is⟩ | is <;> simp [committed, is]
  · simp [committed, cell_restore_of_not_held held]

theorem respects_restore (t : τ) (saved : List (κ × Option ρ)) (T : Table κ τ ρ) :
    T.Respects t (T.restore t saved) := by
  intro k
  by_cases held : T.holder k = some t
  · have free : T.free t k = true := by
      have mine : (T.cell k).holder = some t := held
      simp [Table.free, Cell.free, mine]
    rcases cell_restore_of_held saved held with ⟨r, -, is⟩ | is
    · exact .inr ⟨free, .inr (by simp [holder, is])⟩
    · have gone : ((T.cell k).rollback t).holder = none :=
        (Cell.holder_rollback t (T.cell k)).trans (if_pos held)
      exact .inr ⟨free, .inl (by simpa [holder, is] using gone)⟩
  · exact .inl (cell_restore_of_not_held held)

/-- What `t` has prepared after going back to a savepoint, it had prepared then. -/
theorem pending_restore {r : ρ} (held : (T.restore t saved).holder k = some t)
    (here : (T.restore t saved).pending k = some r) :
    T.holder k = some t ∧ saved.lookup k = some (some r) := by
  by_cases mine : T.holder k = some t
  · refine ⟨mine, ?_⟩
    rcases cell_restore_of_held saved mine with ⟨r', found, is⟩ | is
    · simp only [pending, is, Cell.pending_put] at here
      exact here ▸ found
    · simp only [holder, is, Cell.holder_rollback] at held
      split at held
      · cases held
      · rename_i other
        exact absurd mine other
  · simp only [holder, cell_restore_of_not_held mine] at held
    exact absurd held mine

theorem mem_own {r : Option ρ} : (k, r) ∈ T.own t ↔ T.holder k = some t ∧ T.pending k = r := by
  simp only [own, List.mem_filterMap, Option.ite_none_right_eq_some, Option.some.injEq,
    Prod.mk.injEq]
  constructor
  · rintro ⟨j, -, held, rfl, rfl⟩
    exact ⟨held, rfl⟩
  · rintro ⟨held, rfl⟩
    exact ⟨k, mem_keys_of_holder held, held, rfl, rfl⟩

end Savepoints

/-- The invariant of a table: its law and its unique indexes hold. -/
structure Lawful (law : RowLaw κ ρ) (entries : ρ → List ι) (T : Table κ τ ρ) : Prop where
  follows : T.Follows law
  unique : T.Unique entries

/-- A table outside every transaction, with its unique indexes. -/
structure AtRest (entries : ρ → List ι) (T : Table κ τ ρ) : Prop where
  unlocked : ∀ k, T.holder k = none
  unique : ∀ {j k}, j ≠ k → ¬Clash entries (T.committed j) (T.committed k)

/-- What a step of `t` guarantees the others. -/
structure Moves (law : RowLaw κ ρ) (t : τ) (T T' : Table κ τ ρ) : Prop where
  respects : T.Respects t T'
  evolves : T.Evolves law T'

/-- What `t` relies on the others for. -/
structure Stays (law : RowLaw κ ρ) (t : τ) (T T' : Table κ τ ρ) : Prop where
  keeps : T.Keeps t T'
  evolves : T.Evolves law T'

variable {law : RowLaw κ ρ} {entries : ρ → List ι} {t u : τ} {T T' : Table κ τ ρ}

theorem AtRest.lawful (h : T.AtRest entries) (law : RowLaw κ ρ) : T.Lawful law entries := by
  have nothing : ∀ k r, T.pending k ≠ some r := by
    intro k r here
    obtain ⟨t, held⟩ := held_of_pending here
    simp [h.unlocked k] at held
  refine ⟨fun k t held => by simp [h.unlocked k] at held, h.unique, fun _ clash => ?_,
    fun _ clash => ?_⟩
  all_goals
    obtain ⟨s, here⟩ := clash.right_some
    exact absurd here (nothing _ s)

theorem lookup_mem {rows : List (κ × ρ)} {k : κ} {r : ρ} (h : rows.lookup k = some r) :
    (k, r) ∈ rows := by
  obtain ⟨before, after, rfl, -⟩ := List.lookup_eq_some_iff.mp h
  simp

@[simp] theorem holder_ofRows (rows : List (κ × ρ)) (k : κ) :
    (ofRows rows : Table κ τ ρ).holder k = none := by
  cases found : rows.lookup k <;> simp [holder, ofRows, found, Cell.row, Cell.empty, Cell.holder]

@[simp] theorem committed_ofRows (rows : List (κ × ρ)) (k : κ) :
    (ofRows rows : Table κ τ ρ).committed k = rows.lookup k := by
  cases found : rows.lookup k <;> simp [committed, ofRows, found, Cell.row, Cell.empty]

theorem atRest_ofRows {rows : List (κ × ρ)}
    (fits : ∀ a ∈ rows, ∀ b ∈ rows, a.1 ≠ b.1 → ∀ i ∈ entries a.2, i ∉ entries b.2) :
    (ofRows rows : Table κ τ ρ).AtRest entries := by
  refine ⟨holder_ofRows rows, fun {j k} differ clash => ?_⟩
  rw [committed_ofRows, committed_ofRows] at clash
  obtain ⟨r, s, i, left, right, first, second⟩ := clash
  exact fits _ (lookup_mem left) _ (lookup_mem right) differ i first second

theorem Moves.refl (law : RowLaw κ ρ) (t : τ) (T : Table κ τ ρ) : Moves law t T T :=
  ⟨.refl t T, .refl law T⟩

theorem Stays.refl (law : RowLaw κ ρ) (t : τ) (T : Table κ τ ρ) : Stays law t T T :=
  ⟨.refl t T, .refl law T⟩

theorem Stays.trans {A B C : Table κ τ ρ} (first : Stays law t A B) (second : Stays law t B C) :
    Stays law t A C :=
  ⟨first.keeps.trans second.keeps, first.evolves.trans second.evolves⟩

theorem Moves.stays (h : Moves law t T T') (other : u ≠ t) : Stays law u T T' :=
  ⟨h.respects.keeps other, h.evolves⟩

/-- One lawful write keeps the invariant and the guarantee. -/
theorem Lawful.put (h : T.Lawful law entries) {k : κ} {r : Option ρ}
    (ok : T.Writable entries t k r) (step : law.rel k (T.view t k) r) :
    (T.put t k r).Lawful law entries ∧ Moves law t T (T.put t k r) := by
  refine ⟨⟨h.follows.put (law.trans k (h.follows.view t k) step), h.unique.put ok.free ok.fits⟩,
    respects_put ok.free, fun j => ?_⟩
  simpa using law.refl j _

theorem Lawful.commit (h : T.Lawful law entries) (t : τ) :
    (T.commit t).Lawful law entries ∧ Moves law t T (T.commit t) :=
  ⟨⟨h.follows.commit t, h.unique.commit t⟩, respects_commit t T, h.follows.commit_evolves t⟩

theorem Lawful.rollback (h : T.Lawful law entries) (t : τ) :
    (T.rollback t).Lawful law entries ∧ Moves law t T (T.rollback t) :=
  ⟨⟨h.follows.rollback t, h.unique.rollback t⟩, respects_rollback t T,
    fun k => by simpa using law.refl k _⟩

theorem Lawful.update (h : T.Lawful law entries) {violation : ε} {k : κ} {f : ρ → Option ρ}
    {out : Except ε (Option ρ)} (executed : T.update entries violation t k f = some (out, T'))
    (step : ∀ row r, T.view t k = some row → f row = some r → law.rel k (some row) (some r)) :
    T'.Lawful law entries ∧ Moves law t T T' := by
  rcases update_cases executed with ⟨rfl, -⟩ | ⟨row, r, seen, changed, ok, rfl, -⟩
  · exact ⟨h, .refl law t T'⟩
  · exact h.put ok (seen ▸ step row r seen changed)

theorem Lawful.insert (h : T.Lawful law entries) {violation : ε} {k : κ} {r : ρ}
    {out : Except ε Unit} (executed : T.insert entries violation t k r = some (out, T'))
    (step : T.view t k = none → law.rel k none (some r)) :
    T'.Lawful law entries ∧ Moves law t T T' := by
  rcases insert_cases executed with ⟨rfl, -⟩ | ⟨fresh, ok, rfl, -⟩
  · exact ⟨h, .refl law t T'⟩
  · exact h.put ok (fresh ▸ step fresh)

theorem Lawful.delete (h : T.Lawful law entries) {k : κ} {p : ρ → Bool} {out : Option ρ}
    (executed : T.delete t k p = some (out, T'))
    (step : ∀ row, T.view t k = some row → p row = true → law.rel k (some row) none) :
    T'.Lawful law entries ∧ Moves law t T T' := by
  rcases delete_cases executed with ⟨rfl, -⟩ | ⟨row, seen, holds, free, rfl, -⟩
  · exact ⟨h, .refl law t T'⟩
  · exact h.put ⟨free, fits_none⟩ (seen ▸ step row seen holds)

/-- A locked row keeps its version, which its index entries already allow. -/
theorem Lawful.lock (h : T.Lawful law entries) {k : κ} {row : ρ} (seen : T.view t k = some row)
    (free : T.free t k = true) :
    (T.put t k (some row)).Lawful law entries ∧ Moves law t T (T.put t k (some row)) :=
  h.put ⟨free, seen ▸ h.unique.fits_view free⟩ (seen ▸ law.refl k _)

theorem Lawful.lockRow (h : T.Lawful law entries) {k : κ} {p : ρ → Bool} {out : Option ρ}
    (executed : T.lockRow t k p = some (out, T')) : T'.Lawful law entries ∧ Moves law t T T' := by
  rcases lockRow_cases executed with ⟨rfl, -⟩ | ⟨row, seen, -, free, rfl, -⟩
  · exact ⟨h, .refl law t T'⟩
  · exact h.lock seen free

theorem Lawful.lockRowOrSkip (h : T.Lawful law entries) {k : κ} {p : ρ → Bool} {out : Option ρ}
    (executed : T.lockRowOrSkip t k p = (out, T')) : T'.Lawful law entries ∧ Moves law t T T' := by
  rcases lockRowOrSkip_cases executed with ⟨rfl, -⟩ | ⟨row, seen, -, free, rfl, -⟩
  · exact ⟨h, .refl law t T'⟩
  · exact h.lock seen free

end SaasTemplate.Isolation.Table
