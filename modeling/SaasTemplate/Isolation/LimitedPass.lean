import Mathlib.Data.List.Sort

/-! # Passes over a limited, ordered batch of rows

A pass finds the first rows in some order that meet a condition, up to a limit, and then
writes those of them that still meet it. A row whose new version meets the condition again
keeps its place at the head of the queue, so the next pass finds the same rows.
-/

set_option linter.unusedSectionVars false

namespace SaasTemplate.Isolation.LimitedPass

variable {κ ρ : Type} [DecidableEq κ]

/-- `SELECT id ... WHERE p ORDER BY ... LIMIT limit`. -/
def found (before : κ × ρ → κ × ρ → Bool) (p : ρ → Bool) (limit : Nat) (rows : List (κ × ρ)) :
    List κ :=
  (((rows.filter fun row => p row.2).insertionSort fun a b => before a b).take limit).map (·.1)

/-- Does `UPDATE ... WHERE id IN keys AND p` write this row? -/
def matched (keys : List κ) (p : ρ → Bool) (row : κ × ρ) : Bool := keys.contains row.1 && p row.2

/-- `UPDATE ... SET ... WHERE id IN keys AND p`. -/
def written (keys : List κ) (p : ρ → Bool) (f : ρ → ρ) (rows : List (κ × ρ)) : List (κ × ρ) :=
  rows.map fun row => if matched keys p row then (row.1, f row.2) else row

/-- The rows that the update counts. -/
def counted (keys : List κ) (p : ρ → Bool) (rows : List (κ × ρ)) : List κ :=
  (rows.filter (matched keys p)).map (·.1)

variable {before : κ × ρ → κ × ρ → Bool} {p q : ρ → Bool} {f : ρ → ρ} {keys : List κ} {k : κ}
  {limit : Nat} {rows : List (κ × ρ)}

theorem keys_written : (written keys p f rows).map (·.1) = rows.map (·.1) := by
  simp only [written, List.map_map]
  refine List.map_congr_left fun row _ => ?_
  simp only [Function.comp_apply]
  split <;> rfl

theorem row_of_found (here : k ∈ found before p limit rows) : ∃ r, (k, r) ∈ rows ∧ p r = true := by
  obtain ⟨row, member, rfl⟩ := List.mem_map.mp here
  have kept := List.mem_insertionSort _ |>.mp (List.mem_of_mem_take member)
  exact ⟨row.2, (List.mem_filter.mp kept).1, (List.mem_filter.mp kept).2⟩

/-- What was found is written. -/
theorem counted_of_found (here : k ∈ found before p limit rows) :
    k ∈ counted (found before p limit rows) p rows := by
  obtain ⟨r, member, meets⟩ := row_of_found here
  refine List.mem_map.mpr ⟨(k, r), List.mem_filter.mpr ⟨member, ?_⟩, rfl⟩
  simp [matched, here, meets]

theorem found_eq_nil (none_meets : ∀ row ∈ rows, p row.2 = false) :
    found before p limit rows = [] := by
  have empty : (rows.filter fun row => p row.2) = [] :=
    List.filter_eq_nil_iff.mpr fun row member => by simp [none_meets row member]
  simp [found, empty]

theorem found_ne_nil {row : κ × ρ} (member : row ∈ rows) (meets : p row.2 = true)
    (positive : 0 < limit) : found before p limit rows ≠ [] := by
  intro empty
  have length := congrArg List.length empty
  have some_row : 0 < (rows.filter fun row => p row.2).length :=
    List.length_pos_of_mem (List.mem_filter.mpr ⟨member, meets⟩)
  simp only [found, List.length_map, List.length_take, List.length_insertionSort,
    List.length_nil] at length
  omega

/-- Writing rows that stay as eligible as they were, at the place they had in the order,
    changes nothing for the passes that come after. -/
theorem found_written (stays : ∀ r, q r = true → p (f r) = p r)
    (place : ∀ k r row, before (k, f r) row = before (k, r) row ∧
      before row (k, f r) = before row (k, r)) :
    found before p limit (written keys q f rows) = found before p limit rows := by
  have change : ∀ row : κ × ρ, matched keys q row = true → q row.2 = true := fun row h =>
    (Bool.and_eq_true_iff.mp h).2
  have eligible : ((fun row : κ × ρ => p row.2) ∘
      fun row => if matched keys q row then (row.1, f row.2) else row) = fun row => p row.2 := by
    funext row
    simp only [Function.comp_apply]
    split
    · exact stays _ (change row ‹_›)
    · rfl
  have ordered : ∀ a b : κ × ρ,
      before (if matched keys q a then (a.1, f a.2) else a)
        (if matched keys q b then (b.1, f b.2) else b) = before a b := by
    intro a b
    split <;> split <;> simp [place]
  simp only [found, written, List.filter_map, eligible]
  rw [← List.map_insertionSort (fun a b => before a b = true) (fun a b => before a b = true) _ _
    fun a _ b _ => by rw [ordered], ← List.map_take, List.map_map]
  refine List.map_congr_left fun row _ => ?_
  simp only [Function.comp_apply]
  split <;> rfl

/-! ## Places in the order -/

section Places

variable {α β : Type} [LinearOrder β] {key : α → β} {l : List α} {a : α} {n : ℕ}

theorem mem_take_of_strict (sorted : l.Pairwise fun b c => key b < key c) :
    a ∈ l.take n ↔ a ∈ l ∧ (l.filter fun b => key b < key a).length < n := by
  induction l generalizing n with
  | nil => simp
  | cons b l ih =>
      obtain ⟨first, rest⟩ := List.pairwise_cons.mp sorted
      cases n with
      | zero => simp
      | succ n =>
          rw [List.take_succ_cons, List.mem_cons, List.mem_cons, ih rest, List.filter_cons]
          by_cases same : a = b
          · have none_before : (l.filter fun c => key c < key b) = [] :=
              List.filter_eq_nil_iff.mpr fun c member => by
                simpa using (first c member).le
            subst same
            simp [none_before]
          · simp only [same, false_or]
            refine and_congr_right fun member => ?_
            rw [if_pos (decide_eq_true (first a member)), List.length_cons]
            omega

/-- A row is among the first `n` exactly if fewer than `n` rows come before it. -/
theorem mem_take_sort_iff (distinct : l.Nodup) (apart : ∀ b ∈ l, ∀ c ∈ l, key b = key c → b = c) :
    a ∈ (l.insertionSort fun b c => key b ≤ key c).take n ↔
      a ∈ l ∧ (l.filter fun b => key b < key a).length < n := by
  have permuted := List.perm_insertionSort (fun b c => key b ≤ key c) l
  have trans : IsTrans α fun b c => key b ≤ key c := ⟨fun _ _ _ => le_trans⟩
  have total : Std.Total fun b c : α => key b ≤ key c := ⟨fun b c => le_total (key b) (key c)⟩
  have sorted := List.pairwise_insertionSort (fun b c => key b ≤ key c) l
  have strict : (l.insertionSort fun b c => key b ≤ key c).Pairwise fun b c => key b < key c := by
    have nodup := permuted.nodup_iff.mpr distinct
    refine (List.pairwise_and_iff.mpr ⟨sorted, nodup⟩).imp_of_mem fun inside inside' both => ?_
    refine lt_of_le_of_ne both.1 fun same => both.2 ?_
    exact apart _ (permuted.mem_iff.mp inside) _ (permuted.mem_iff.mp inside') same
  rw [mem_take_of_strict strict, permuted.mem_iff, (permuted.filter _).length_eq]

/-- Of the rows that meet a condition, one has the least key. -/
theorem exists_least (key : α → β) {p : α → Prop} (some_row : ∃ b ∈ l, p b) :
    ∃ b ∈ l, p b ∧ ∀ c ∈ l, p c → key b ≤ key c := by
  induction l with
  | nil => simp at some_row
  | cons b l ih =>
      by_cases later : ∃ c ∈ l, p c
      · obtain ⟨c, member, meets, least⟩ := ih later
        by_cases before : p b ∧ key b ≤ key c
        · refine ⟨b, List.mem_cons_self, before.1, fun d inside other => ?_⟩
          rcases List.mem_cons.mp inside with rfl | inside
          · exact le_rfl
          · exact before.2.trans (least d inside other)
        · refine ⟨c, List.mem_cons_of_mem b member, meets, fun d inside other => ?_⟩
          rcases List.mem_cons.mp inside with rfl | inside
          · exact (not_le.mp fun le => before ⟨other, le⟩).le
          · exact least d inside other
      · obtain ⟨c, inside, meets⟩ := some_row
        rcases List.mem_cons.mp inside with rfl | member
        · refine ⟨c, List.mem_cons_self, meets, fun d inside other => ?_⟩
          rcases List.mem_cons.mp inside with rfl | member
          · exact le_rfl
          · exact absurd ⟨d, member, other⟩ later
        · exact absurd ⟨c, member, meets⟩ later

end Places

end SaasTemplate.Isolation.LimitedPass
