import Mathlib.Data.List.Basic

/-! # Texts joined by a separator

A separator whose first character does not come again in it cannot overlap with itself. Two
ways to cut a text at it are then the same, or one of them cuts further on.
-/

namespace SaasTemplate.Text

/-- The first character of the separator does not come again in it. -/
def Lone (s : String) : Prop := ∃ c rest, s.toList = c :: rest ∧ c ∉ rest

section
variable {α : Type} {c : α} {s x y x' y' : List α}

/-- Where the second cut is not before the first. -/
theorem cut_right (lone : c ∉ s) {z : List α} (later : x' = x ++ z)
    (rest : c :: s ++ y = z ++ (c :: s ++ y')) :
    (x = x' ∧ y = y') ∨ ∃ w, x' = x ++ (c :: s) ++ w ∧ y = w ++ (c :: s) ++ y' := by
  rcases List.append_eq_append_iff.mp rest with ⟨w, further, same⟩ | ⟨w, inside, same⟩
  · refine .inr ⟨w, ?_, ?_⟩
    · rw [later, further, List.append_assoc]
    · rw [same, List.append_assoc]
  · -- `w` is what is left of the separator after the second cut starts inside it.
    cases w with
    | nil =>
        simp only [List.append_nil] at inside
        refine .inr ⟨[], ?_, ?_⟩
        · rw [later, inside, List.append_nil]
        · simpa using same.symm
    | cons d w =>
        obtain ⟨rfl, -⟩ := List.cons.inj same
        cases z with
        | nil =>
            simp only [List.nil_append, List.append_cancel_left_eq] at rest
            exact .inl ⟨by rw [later, List.append_nil], rest⟩
        | cons e z =>
            obtain ⟨-, tail⟩ := List.cons.inj inside
            exact absurd (tail ▸ by simp) lone

theorem cut_cases (lone : c ∉ s) (same : x ++ (c :: s) ++ y = x' ++ (c :: s) ++ y') :
    (x = x' ∧ y = y') ∨ (∃ w, x' = x ++ (c :: s) ++ w ∧ y = w ++ (c :: s) ++ y') ∨
      ∃ w, x = x' ++ (c :: s) ++ w ∧ y' = w ++ (c :: s) ++ y := by
  rw [List.append_assoc, List.append_assoc] at same
  rcases List.append_eq_append_iff.mp same with ⟨z, later, rest⟩ | ⟨z, later, rest⟩
  · rcases cut_right lone later rest with equal | further
    · exact .inl equal
    · exact .inr (.inl further)
  · rcases cut_right lone later rest with ⟨left, right⟩ | further
    · exact .inl ⟨left.symm, right.symm⟩
    · exact .inr (.inr further)

end

variable {s x y x' y' : String}

/-- Two cuts of one text at a separator. -/
theorem separator_cases (lone : Lone s) (same : x ++ s ++ y = x' ++ s ++ y') :
    (x = x' ∧ y = y') ∨ (∃ w, x' = x ++ s ++ w ∧ y = w ++ s ++ y') ∨
      ∃ w, x = x' ++ s ++ w ∧ y' = w ++ s ++ y := by
  obtain ⟨c, rest, head, fresh⟩ := lone
  have lists := congrArg String.toList same
  simp only [String.toList_append, head] at lists
  rcases cut_cases fresh lists with ⟨left, right⟩ | ⟨w, left, right⟩ | ⟨w, left, right⟩
  · exact .inl ⟨String.toList_inj.mp left, String.toList_inj.mp right⟩
  · refine .inr (.inl ⟨String.ofList w, ?_, ?_⟩)
    · exact String.toList_inj.mp (by simpa [head] using left)
    · exact String.toList_inj.mp (by simpa [head] using right)
  · refine .inr (.inr ⟨String.ofList w, ?_, ?_⟩)
    · exact String.toList_inj.mp (by simpa [head] using left)
    · exact String.toList_inj.mp (by simpa [head] using right)

/-- Texts before the separator that lack its first character are the same. -/
theorem separator_eq {c : Char} (lone : Lone s) (head : s.toList.head? = some c)
    (fresh : c ∉ x.toList) (fresh' : c ∉ x'.toList) (same : x ++ s ++ y = x' ++ s ++ y') :
    x = x' ∧ y = y' := by
  have inside : ∀ a w : String, c ∈ (a ++ s ++ w).toList := by
    intro a w
    simp [List.mem_of_mem_head? head]
  rcases separator_cases lone same with equal | ⟨w, is, -⟩ | ⟨w, is, -⟩
  · exact equal
  · exact absurd (is ▸ inside x w) fresh'
  · exact absurd (is ▸ inside x' w) fresh

/-- A text is not longer than itself. -/
theorem ne_append_of_ne_empty {z : String} (proper : z ≠ "") : x ≠ x ++ z := by
  intro same
  have lengths := congrArg String.length same
  rw [String.length_append] at lengths
  exact proper (String.length_eq_zero_iff.mp (by omega))

end SaasTemplate.Text
