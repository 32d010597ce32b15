import Mathlib.Data.Prod.Lex
import SaasTemplate.Paging.Keyset
import SaasTemplate.Privacy.ExportProviders

/-! # The pages of the subject data exporter

A provider reads its rows in batches, each by a statement of its own, so the table may be another
one for every batch. The cursor is the sort value and the id of the last row.
-/

namespace SaasTemplate.Privacy.SubjectData

variable {α : Type} (row : α → Row)

/-- `_after_keyset`. -/
def afterKeyset (lastKey : Time × Uuid) (a : α) : Bool :=
  decide (lastKey.1 < (row a).sortKey) ||
    (decide ((row a).sortKey = lastKey.1) && decide (lastKey.2 < (row a).id))

/-- The statement of `_keyset_page_statement`, on the rows that its filter selects. -/
def keysetPage (lastKey : Option (Time × Uuid)) (batchSize : ℕ) (selected : List α) : List α :=
  let stmt := match lastKey with
    | none => selected
    | some lastKey => selected.filter (afterKeyset row lastKey)
  (stmt.insertionSort (pageOrder row)).take batchSize

/-- `batch_size or _EXPORT_PROVIDER_BATCH_SIZE`. -/
def effectiveBatchSize : Option ℕ → ℕ
  | none => 500
  | some 0 => 500
  | some batchSize => batchSize

/-- `_iter_model_keyset` and `_iter_row_keyset` from batch `n` on, with the number of the batch that
    was empty. `selected n` is what the filter selects when batch `n` is read. -/
def iterKeyset (batchSize : Option ℕ) (selected : ℕ → List α) :
    (fuel n : ℕ) → Option (Time × Uuid) → Option (List α × ℕ)
  | 0, _, _ => none
  | fuel + 1, n, lastKey =>
      let rows := keysetPage row lastKey (effectiveBatchSize batchSize) (selected n)
      match rows.getLast? with
      | none => some ([], n)
      | some lastRow =>
          (iterKeyset batchSize selected fuel (n + 1)
            (some ((row lastRow).sortKey, (row lastRow).id))).map fun rest =>
              (rows ++ rest.1, rest.2)

/-! ## Tables that change -/

/-- A table with a primary key. -/
structure PagedTable where
  rows : List α
  ids : (rows.map fun a => (row a).id).Nodup

inductive Change (α : Type) where
  | insert (a : α)
  | delete (id : Uuid)

variable {row}

namespace PagedTable

/-- An insert of an id that is there fails. -/
def apply (table : PagedTable row) : Change α → PagedTable row
  | .insert a =>
      if new : (row a).id ∈ table.rows.map fun a => (row a).id then table
      else ⟨a :: table.rows, List.nodup_cons.mpr ⟨new, table.ids⟩⟩
  | .delete id =>
      ⟨table.rows.filter fun a => (row a).id ≠ id, table.ids.sublist (List.filter_sublist.map _)⟩

/-- The table when batch `n` is read, with the changes between each two batches. -/
def atBatch (table : PagedTable row) (between : ℕ → List (Change α)) : ℕ → PagedTable row
  | 0 => table
  | n + 1 => (between n).foldl apply (table.atBatch between n)

/-- The rows that a change brings in. -/
def inserted : List (Change α) → List α
  | [] => []
  | .insert a :: rest => a :: inserted rest
  | .delete _ :: rest => inserted rest

theorem mem_of_mem_foldl {changes : List (Change α)} {table : PagedTable row} {a : α}
    (there : a ∈ (changes.foldl apply table).rows) : a ∈ table.rows ∨ a ∈ inserted changes := by
  induction changes generalizing table with
  | nil => exact .inl there
  | cons change rest ih =>
      rcases ih there with before | later
      · cases change with
        | insert b =>
            simp only [apply] at before
            split_ifs at before
            · exact .inl before
            · rcases List.mem_cons.mp before with rfl | old
              · exact .inr List.mem_cons_self
              · exact .inl old
        | delete id => exact .inl (List.mem_filter.mp before).1
      · cases change with
        | insert b => exact .inr (List.mem_cons_of_mem b later)
        | delete id => exact .inr later

/-- A row that no change deletes stays. -/
theorem stays {changes : List (Change α)} {table : PagedTable row} {a : α}
    (there : a ∈ table.rows) (kept : ∀ id, .delete id ∈ changes → id ≠ (row a).id) :
    a ∈ (changes.foldl apply table).rows := by
  induction changes generalizing table with
  | nil => exact there
  | cons change rest ih =>
      refine ih ?_ fun id later => kept id (List.mem_cons_of_mem change later)
      cases change with
      | insert b =>
          simp only [apply]
          split_ifs
          · exact there
          · exact List.mem_cons_of_mem b there
      | delete id =>
          refine List.mem_filter.mpr ⟨there, ?_⟩
          simpa using (kept id List.mem_cons_self).symm

theorem stays_atBatch {table : PagedTable row} {between : ℕ → List (Change α)} {a : α}
    (there : a ∈ table.rows) (kept : ∀ n id, .delete id ∈ between n → id ≠ (row a).id) (n : ℕ) :
    a ∈ (table.atBatch between n).rows := by
  induction n with
  | zero => exact there
  | succ n ih => exact stays ih (kept n)

/-- Finitely many changes bring in finitely many rows. -/
theorem finitely_many (table : PagedTable row) {between : ℕ → List (Change α)} {N : ℕ}
    (quiet : ∀ n, N ≤ n → between n = []) :
    ∃ ever : List α, ∀ n, ∀ a ∈ (table.atBatch between n).rows, a ∈ ever := by
  refine ⟨table.rows ++ (List.range N).flatMap fun n => inserted (between n), fun n => ?_⟩
  induction n with
  | zero => exact fun a there => List.mem_append_left _ there
  | succ n ih =>
      intro a there
      rcases mem_of_mem_foldl there with before | new
      · exact ih a before
      · by_cases early : n < N
        · exact List.mem_append_right _
            (List.mem_flatMap.mpr ⟨n, List.mem_range.mpr early, new⟩)
        · rw [quiet n (by omega)] at new
          cases new

end PagedTable

/-! ## The pages are keyset pages -/

/-- The sort value, then the id. -/
def keyOf (row : α → Row) (a : α) : Time ×ₗ Uuid := toLex ((row a).sortKey, (row a).id)

theorem keyOf_lt_iff {a b : α} : keyOf row a < keyOf row b ↔ (row a).sortKey < (row b).sortKey ∨
    ((row a).sortKey = (row b).sortKey ∧ (row a).id < (row b).id) := Prod.Lex.toLex_lt_toLex

theorem keyOf_le_iff {a b : α} : keyOf row a ≤ keyOf row b ↔ pageOrder row a b :=
  Prod.Lex.toLex_le_toLex

theorem afterKeyset_eq (lastKey : Time × Uuid) (a : α) :
    afterKeyset row lastKey a = Paging.after (keyOf row) (some (toLex lastKey)) a := by
  have same : toLex lastKey < keyOf row a ↔ lastKey.1 < (row a).sortKey ∨
      (lastKey.1 = (row a).sortKey ∧ lastKey.2 < (row a).id) := Prod.Lex.toLex_lt_toLex
  have turned : (row a).sortKey = lastKey.1 ↔ lastKey.1 = (row a).sortKey := eq_comm
  rw [Bool.eq_iff_iff]
  simp only [afterKeyset, Paging.after, Option.all_some, decide_eq_true_eq, Bool.or_eq_true,
    Bool.and_eq_true, same, turned]

theorem insertionSort_congr {r s : α → α → Prop} [DecidableRel r] [DecidableRel s]
    (rows : List α) (same : ∀ a b, r a b ↔ s a b) :
    rows.insertionSort r = rows.insertionSort s := by
  obtain rfl : r = s := funext₂ fun a b => propext (same a b)
  congr

theorem keysetPage_eq (lastKey : Option (Time × Uuid)) (batchSize : ℕ) (selected : List α) :
    keysetPage row lastKey batchSize selected =
      Paging.page (keyOf row) (lastKey.map toLex) batchSize selected := by
  have sorts : ∀ rows : List α, rows.insertionSort (pageOrder row) =
      rows.insertionSort fun a b => keyOf row a ≤ keyOf row b :=
    fun rows => insertionSort_congr rows fun a b => keyOf_le_iff.symm
  unfold keysetPage Paging.page
  cases lastKey with
  | none =>
      have everything : selected.filter (Paging.after (keyOf row) none) = selected :=
        List.filter_eq_self.mpr fun _ _ => rfl
      simp only [Option.map_none, everything, sorts]
  | some lastKey =>
      simp only [Option.map_some, sorts, funext (afterKeyset_eq lastKey)]

theorem iterKeyset_eq (batchSize : Option ℕ) (selected : ℕ → List α) (fuel n : ℕ)
    (lastKey : Option (Time × Uuid)) :
    iterKeyset row batchSize selected fuel n lastKey =
      Paging.pages (keyOf row) selected (effectiveBatchSize batchSize) fuel n
        (lastKey.map toLex) := by
  induction fuel generalizing n lastKey with
  | zero => rfl
  | succ fuel ih =>
      simp only [iterKeyset, Paging.pages, keysetPage_eq, ih, Option.map_some]
      rfl

theorem effectiveBatchSize_pos : ∀ batchSize : Option ℕ, 0 < effectiveBatchSize batchSize
  | none => by decide
  | some 0 => by decide
  | some (n + 1) => Nat.succ_pos n

theorem distinct_keys {rows : List α} (ids : (rows.map fun a => (row a).id).Nodup)
    (filter : α → Bool) : ((rows.filter filter).map (keyOf row)).Nodup := by
  have kept : ((rows.filter filter).map fun a => (row a).id).Nodup :=
    ids.sublist (List.filter_sublist.map _)
  refine List.Nodup.of_map (fun k : Time ×ₗ Uuid => (ofLex k).2) ?_
  rwa [List.map_map]

/-- Whatever is inserted and deleted between the batches, the iteration ends; it yields rows that
    the filter has selected, in the order of sort value and id and none twice, and every row once
    that the filter selects all the time. -/
theorem keyset_paging (table : PagedTable row) {between : ℕ → List (Change α)}
    (finitely : ∃ N, ∀ n, N ≤ n → between n = []) (filter : ℕ → α → Bool) (batchSize : Option ℕ) :
    ∃ fuel yielded final,
      iterKeyset row batchSize (fun n => (table.atBatch between n).rows.filter (filter n)) fuel 0
        none = some (yielded, final) ∧
      yielded.Pairwise (fun a b => (row a).sortKey < (row b).sortKey ∨
        ((row a).sortKey = (row b).sortKey ∧ (row a).id < (row b).id)) ∧
      (∀ a ∈ yielded, ∃ n, n ≤ final ∧ a ∈ (table.atBatch between n).rows ∧ filter n a = true) ∧
      ∀ a, (∀ n, n ≤ final → a ∈ (table.atBatch between n).rows ∧ filter n a = true) →
        ∃! i : ℕ, yielded[i]? = some a := by
  obtain ⟨N, quiet⟩ := finitely
  obtain ⟨ever, finite⟩ := PagedTable.finitely_many table quiet
  have positive := effectiveBatchSize_pos batchSize
  obtain ⟨fuel, yielded, final, ends⟩ : ∃ fuel yielded final, Paging.pages (keyOf row)
      (fun n => (table.atBatch between n).rows.filter (filter n)) (effectiveBatchSize batchSize)
      fuel 0 none = some (yielded, final) :=
    Paging.pages_end (fun n a member => finite n a (List.mem_filter.mp member).1) 0 none
  obtain ⟨-, paged⟩ := Paging.paged_of_pages positive
    (fun n => distinct_keys (table.atBatch between n).ids (filter n)) ends
  refine ⟨fuel, yielded, final, (iterKeyset_eq ..).trans ends, ?_, fun a listed => ?_,
    fun a stays => ?_⟩
  · exact paged.ordered.imp keyOf_lt_iff.mp
  · obtain ⟨n, -, until_, member⟩ := paged.read a listed
    exact ⟨n, until_, List.mem_filter.mp member⟩
  · have listed := paged.complete a rfl fun n _ until_ => List.mem_filter.mpr (stays n until_)
    obtain ⟨i, here⟩ := List.getElem?_of_mem listed
    have apart : yielded.Nodup := paged.ordered.imp fun {a b} (before : keyOf row a < keyOf row b)
      same => absurd (congrArg (keyOf row) same) before.ne
    refine ⟨i, here, fun j there => ?_⟩
    obtain ⟨bound, -⟩ := List.getElem?_eq_some_iff.mp there
    exact (List.getElem?_inj bound apart).mp (there.trans here.symm)

/-- Three rows of one time. -/
def exampleRow (id : Uuid) : Row := ⟨id, 7, fun _ => .null⟩

def exampleTable : PagedTable fun r : Row => r :=
  ⟨[exampleRow 3, exampleRow 1, exampleRow 9], by decide⟩

/-- After the first batch its first row is deleted, and a row comes in after it. -/
def exampleBetween (n : ℕ) : List (Change Row) :=
  if n = 0 then [.delete 1, .insert (exampleRow 5)] else []

theorem keyset_paging_example :
    ∃ fuel yielded final,
      iterKeyset (fun r : Row => r) (some 2)
        (fun n => (exampleTable.atBatch exampleBetween n).rows.filter fun _ => true) fuel 0 none =
          some (yielded, final) ∧ ∃! i : ℕ, yielded[i]? = some (exampleRow 9) := by
  obtain ⟨fuel, yielded, final, ends, -, -, once⟩ := keyset_paging exampleTable
    ⟨1, fun n later => if_neg (show ¬n = 0 by omega)⟩ (fun _ _ => true) (some 2)
  refine ⟨fuel, yielded, final, ends, once _ fun n _ => ⟨?_, rfl⟩⟩
  refine PagedTable.stays_atBatch (by simp [exampleTable]) (fun n id deleted => ?_) n
  split_ifs at deleted
  · simp only [List.mem_cons, Change.delete.injEq, reduceCtorEq, List.not_mem_nil,
      or_false] at deleted
    subst deleted
    decide
  · cases deleted

/-! ## What the providers read -/

/-- Over a table that stays as it is, the batches yield the selected rows in the order of the
    pages. -/
theorem iterKeyset_still {rows : List α} (ids : (rows.map fun a => (row a).id).Nodup)
    {selected : α → Bool} {batchSize : Option ℕ} {fuel final : ℕ} {yielded : List α}
    (h : iterKeyset row batchSize (fun _ => rows.filter selected) fuel 0 none =
      some (yielded, final)) : yielded = iterModelKeyset row selected rows := by
  rw [iterKeyset_eq] at h
  rw [Paging.pages_still (effectiveBatchSize_pos batchSize) (distinct_keys ids selected) h]
  exact insertionSort_congr _ fun a b => keyOf_le_iff

/-- A row is joined to one purpose, so the ids of the rows stay apart. -/
theorem ids_joinPurposes {rows : List α} {purposeId : α → Uuid} {purposes : List PurposeRow}
    (ids : (rows.map fun a => (row a).id).Nodup) (keys : (purposes.map (·.id)).Nodup) :
    ((joinPurposes purposeId rows purposes).map fun joined => (row joined.1).id).Nodup := by
  have one : ∀ id, (purposes.filter fun purpose => purpose.id = id).length ≤ 1 := by
    intro id
    have counted := List.nodup_iff_count_le_one.mp keys id
    rw [List.count, List.countP_map, List.countP_eq_length_filter] at counted
    refine (congrArg List.length (List.filter_congr fun purpose _ => ?_)).trans_le counted
    rw [Bool.eq_iff_iff]
    simp
  unfold joinPurposes
  rw [List.map_flatMap]
  induction rows with
  | nil => exact List.nodup_nil
  | cons a rest ih =>
      rw [List.map_cons, List.nodup_cons] at ids
      rw [List.flatMap_cons, List.nodup_append]
      refine ⟨?_, ih ids.2, ?_⟩
      · have bound := one (purposeId a)
        generalize purposes.filter (fun purpose => purpose.id = purposeId a) = joined at bound
        rcases joined with - | ⟨purpose, - | ⟨another, more⟩⟩
        · exact List.nodup_nil
        · exact List.nodup_singleton _
        · simp at bound
      · intro id here other there same
        simp only [List.map_map, List.mem_map, List.mem_flatMap] at here there
        obtain ⟨_, _, is⟩ := here
        obtain ⟨b, listed, _, _, is'⟩ := there
        exact ids.1 (List.mem_map.mpr ⟨b, listed, is'.trans (same.symm.trans is.symm)⟩)

end SaasTemplate.Privacy.SubjectData
