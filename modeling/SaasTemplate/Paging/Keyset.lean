import Mathlib.Data.List.Sort
import Mathlib.Order.Basic

/-! # Keyset paging

Rows are read page by page, in the order of a key: each page is the first rows after the key of
the last one. The rows may be others at every page. `rows n` are those that page `n` is taken
from, and no two of them have the same key.
-/

set_option linter.unusedSectionVars false

namespace SaasTemplate.Paging

variable {ρ K : Type} [LinearOrder K] (key : ρ → K)

/-- Is the row after the cursor? -/
def after (last : Option K) (row : ρ) : Bool := last.all (· < key row)

/-- The first `size` rows after the cursor. -/
def page (last : Option K) (size : ℕ) (rows : List ρ) : List ρ :=
  ((rows.filter (after key last)).insertionSort fun a b => key a ≤ key b).take size

/-- All pages from page `n` on, with the number of the page that was empty; `none` where the fuel
    does not suffice. -/
def pages (rows : ℕ → List ρ) (size : ℕ) : (fuel n : ℕ) → Option K → Option (List ρ × ℕ)
  | 0, _, _ => none
  | fuel + 1, n, last =>
      match (page key last size (rows n)).getLast? with
      | none => some ([], n)
      | some row => (pages rows size fuel (n + 1) (some (key row))).map fun rest =>
          (page key last size (rows n) ++ rest.1, rest.2)

variable {key} {last : Option K} {size : ℕ} {table : List ρ} {row a b : ρ}

/-! ## One page -/

theorem after_trans (first : after key last a = true) (next : key a < key b) :
    after key last b = true := by
  cases last with
  | none => rfl
  | some k =>
      simp only [after, Option.all_some, decide_eq_true_eq] at first ⊢
      exact first.trans next

theorem mem_sorted :
    row ∈ (table.filter (after key last)).insertionSort (fun a b => key a ≤ key b) ↔
      row ∈ table ∧ after key last row = true := by
  rw [List.mem_insertionSort, List.mem_filter]

theorem mem_of_mem_page (h : row ∈ page key last size table) :
    row ∈ table ∧ after key last row = true := mem_sorted.mp (List.mem_of_mem_take h)

/-- Sorting by keys that differ leaves no ties. -/
theorem sorted_strict (last : Option K) (distinct : (table.map key).Nodup) :
    ((table.filter (after key last)).insertionSort fun a b => key a ≤ key b).Pairwise
      fun a b => key a < key b := by
  have ordered := List.pairwise_insertionSort (fun a b => key a ≤ key b)
    (table.filter (after key last))
  have different : ((table.filter (after key last)).insertionSort
      fun a b => key a ≤ key b).Pairwise fun a b => key a ≠ key b := by
    have kept : ((table.filter (after key last)).map key).Nodup :=
      distinct.sublist (List.filter_sublist.map key)
    rw [← ((List.perm_insertionSort (fun a b => key a ≤ key b) _).map key).nodup_iff] at kept
    exact List.pairwise_map.mp kept
  exact (ordered.and different).imp fun h => lt_of_le_of_ne h.1 h.2

theorem page_strict (distinct : (table.map key).Nodup) :
    (page key last size table).Pairwise fun a b => key a < key b :=
  (sorted_strict last distinct).sublist (List.take_sublist size _)

/-- A row that is left for later comes after the whole page. -/
theorem lt_of_left_over (distinct : (table.map key).Nodup) (there : row ∈ table)
    (due : after key last row = true) (left : row ∉ page key last size table) :
    ∀ a ∈ page key last size table, key a < key row := by
  intro a onPage
  have split := List.take_append_drop size
    ((table.filter (after key last)).insertionSort fun a b => key a ≤ key b)
  have dropped : row ∈ ((table.filter (after key last)).insertionSort
      fun a b => key a ≤ key b).drop size := by
    have member := mem_sorted.mpr ⟨there, due⟩
    rw [← split] at member
    exact (List.mem_append.mp member).resolve_left left
  have strict := sorted_strict last distinct
  rw [← split] at strict
  exact (List.pairwise_append.mp strict).2.2 a onPage row dropped

theorem page_eq_nil (positive : 0 < size) (empty : page key last size table = [])
    (there : row ∈ table) : after key last row = false := by
  by_contra due
  have member : row ∈ (table.filter (after key last)).insertionSort (fun a b => key a ≤ key b) :=
    mem_sorted.mpr ⟨there, by simpa using due⟩
  rw [page, List.take_eq_nil_iff] at empty
  rcases empty with zero | none
  · omega
  · rw [none] at member
    cases member

/-! ## All pages -/

variable {rows : ℕ → List ρ} {fuel n final : ℕ} {yielded : List ρ}

/-- What the pages from page `n` on yield. -/
structure Paged (key : ρ → K) (rows : ℕ → List ρ) (last : Option K) (n final : ℕ)
    (yielded : List ρ) : Prop where
  ordered : yielded.Pairwise fun a b => key a < key b
  beyond : ∀ row ∈ yielded, after key last row = true
  read : ∀ row ∈ yielded, ∃ m, n ≤ m ∧ m ≤ final ∧ row ∈ rows m
  complete : ∀ row, after key last row = true → (∀ m, n ≤ m → m ≤ final → row ∈ rows m) →
    row ∈ yielded

theorem Paged.nil (positive : 0 < size) (empty : page key last size (rows n) = []) :
    Paged key rows last n n [] where
  ordered := .nil
  beyond := by simp
  read := by simp
  complete row due there := by
    rw [page_eq_nil positive empty (there n (Nat.le_refl n) (Nat.le_refl n))] at due
    cases due

/-- A page, and what comes after its last row. -/
theorem Paged.append (distinct : ((rows n).map key).Nodup)
    (ends : (page key last size (rows n)).getLast? = some a)
    (rest : Paged key rows (some (key a)) (n + 1) final yielded) (later : n ≤ final) :
    Paged key rows last n final (page key last size (rows n) ++ yielded) := by
  have strict : (page key last size (rows n)).Pairwise fun a b => key a < key b :=
    page_strict distinct
  have onPage := List.mem_of_getLast? ends
  -- the last row of the page is its greatest
  have greatest : ∀ b ∈ page key last size (rows n), key b ≤ key a := by
    intro b member
    obtain ⟨front, is⟩ := List.getLast?_eq_some_iff.mp ends
    rw [is] at member strict
    rcases List.mem_append.mp member with inside | same
    · exact ((List.pairwise_append.mp strict).2.2 b inside a List.mem_cons_self).le
    · rw [List.mem_singleton.mp same]
  have beyond : ∀ row, after key (some (key a)) row = true → key a < key row := fun row due => by
    simpa [after] using due
  refine ⟨?_, ?_, ?_, ?_⟩
  · refine List.pairwise_append.mpr ⟨strict, rest.ordered, fun b member row listed => ?_⟩
    exact (greatest b member).trans_lt (beyond row (rest.beyond row listed))
  · intro row member
    rcases List.mem_append.mp member with here | there
    · exact (mem_of_mem_page here).2
    · exact after_trans (mem_of_mem_page onPage).2 (beyond row (rest.beyond row there))
  · intro row member
    rcases List.mem_append.mp member with here | there
    · exact ⟨n, Nat.le_refl n, later, (mem_of_mem_page here).1⟩
    · obtain ⟨m, from_, until_, read⟩ := rest.read row there
      exact ⟨m, by omega, until_, read⟩
  · intro row due there
    by_cases here : row ∈ page key last size (rows n)
    · exact List.mem_append_left _ here
    · have left := lt_of_left_over distinct (there n (Nat.le_refl n) later) due here a onPage
      refine List.mem_append_right _ (rest.complete row ?_ fun m from_ until_ =>
        there m (by omega) until_)
      simpa [after] using left

/-- Whatever the pages are taken from, they come in order, repeat nothing, and lose no row that
    is there all the time. -/
theorem paged_of_pages (positive : 0 < size) (distinct : ∀ n, ((rows n).map key).Nodup)
    (h : pages key rows size fuel n last = some (yielded, final)) :
    n ≤ final ∧ Paged key rows last n final yielded := by
  induction fuel generalizing n last yielded with
  | zero => cases h
  | succ fuel ih =>
      unfold pages at h
      split at h
      · rename_i ends
        cases h
        exact ⟨Nat.le_refl _, .nil positive (List.getLast?_eq_none_iff.mp ends)⟩
      · rename_i a ends
        obtain ⟨⟨rest, last_⟩, further, is⟩ := Option.map_eq_some_iff.mp h
        cases is
        obtain ⟨later, paged⟩ := ih further
        exact ⟨by omega, .append (distinct n) ends paged (by omega)⟩

/-- With finitely many rows in all, there are finitely many pages. -/
theorem pages_end {ever : List ρ} (finite : ∀ n, ∀ row ∈ rows n, row ∈ ever) (n : ℕ)
    (last : Option K) :
    ∃ fuel yielded final, pages key rows size fuel n last = some (yielded, final) := by
  generalize left : (ever.filter (after key last)).length = bound
  induction bound using Nat.strong_induction_on generalizing n last with
  | _ bound ih =>
      cases ends : (page key last size (rows n)).getLast? with
      | none => exact ⟨1, [], n, by simp [pages, ends]⟩
      | some a =>
          have onPage := mem_of_mem_page (List.mem_of_getLast? ends)
          -- the rows after the page are fewer, since its last row is not among them
          have sub : (ever.filter (after key (some (key a)))).Sublist
              (ever.filter (after key last)) :=
            List.monotone_filter_right ever fun b due =>
              after_trans onPage.2 (by simpa [after] using due)
          have fewer : (ever.filter (after key (some (key a)))).length < bound := by
            refine left ▸ lt_of_le_of_ne sub.length_le fun same => ?_
            have listed := List.mem_filter.mpr ⟨finite n a onPage.1, onPage.2⟩
            rw [← sub.eq_of_length same] at listed
            simpa [after] using (List.mem_filter.mp listed).2
          obtain ⟨fuel, yielded, final, rest⟩ := ih _ fewer (n + 1) (some (key a)) rfl
          refine ⟨fuel + 1, page key last size (rows n) ++ yielded, final, ?_⟩
          simp only [pages, ends, rest, Option.map_some]

/-- Of rows that stay as they are, the pages yield all, in order. -/
theorem pages_still (positive : 0 < size) (distinct : (table.map key).Nodup)
    (h : pages key (fun _ => table) size fuel n none = some (yielded, final)) :
    yielded = table.insertionSort fun a b => key a ≤ key b := by
  obtain ⟨-, paged⟩ := paged_of_pages positive (fun _ => distinct) h
  have same : ∀ row, row ∈ yielded ↔ row ∈ table.insertionSort fun a b => key a ≤ key b := by
    intro row
    rw [List.mem_insertionSort]
    constructor
    · intro listed
      obtain ⟨-, -, -, there⟩ := paged.read row listed
      exact there
    · exact fun there => paged.complete row rfl fun _ _ _ => there
  have strict : (table.insertionSort fun a b => key a ≤ key b).Pairwise
      fun a b => key a < key b := by
    have all := sorted_strict none distinct
    have everything : table.filter (after key none) = table :=
      List.filter_eq_self.mpr fun _ _ => rfl
    rwa [everything] at all
  have perm : yielded.Perm (table.insertionSort fun a b => key a ≤ key b) :=
    (List.perm_ext_iff_of_nodup (paged.ordered.imp fun {a b} (before : key a < key b) same =>
      absurd (congrArg key same) before.ne) (strict.imp fun {a b} (before : key a < key b) same =>
      absurd (congrArg key same) before.ne)).mpr same
  exact perm.eq_of_pairwise (fun a b _ _ before after_ => absurd before after_.asymm)
    paged.ordered strict

end SaasTemplate.Paging
