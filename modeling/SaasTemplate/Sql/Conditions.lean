import Mathlib.Data.List.Infix

/-! # Conditions of SQL

A condition is true, false or unknown, and `WHERE` keeps the rows for which it is true. `LIKE`
matches a text against a pattern with wildcards.
-/

namespace SaasTemplate.Sql

/-- What a condition comes to; `none` is unknown. -/
abbrev Truth := Option Bool

namespace Truth

protected def not (a : Truth) : Truth := a.map Bool.not

protected def and : Truth → Truth → Truth
  | some false, _ => some false
  | _, some false => some false
  | some true, some true => some true
  | _, _ => none

protected def or : Truth → Truth → Truth
  | some true, _ => some true
  | _, some true => some true
  | some false, some false => some false
  | _, _ => none

/-- `WHERE` keeps the row. -/
def holds (a : Truth) : Bool := a == some true

variable {a b : Truth}

@[simp] theorem holds_known (value : Bool) : holds (some value) = value := by cases value <;> rfl

@[simp] theorem holds_unknown : holds none = false := rfl

@[simp] theorem holds_and : (a.and b).holds = (a.holds && b.holds) := by
  match a, b with
  | none, none | none, some true | none, some false => rfl
  | some true, none | some true, some true | some true, some false => rfl
  | some false, none | some false, some true | some false, some false => rfl

@[simp] theorem holds_or : (a.or b).holds = (a.holds || b.holds) := by
  match a, b with
  | none, none | none, some true | none, some false => rfl
  | some true, none | some true, some true | some true, some false => rfl
  | some false, none | some false, some true | some false, some false => rfl

/-- A negation keeps what a known condition drops; what is unknown, both drop. -/
@[simp] theorem not_known (value : Bool) : Truth.not (some value) = some (!value) := rfl

end Truth

/-! ## Values that may be null -/

section Values

variable {α : Type}

/-- A comparison is unknown where a side is null. -/
def compare (r : α → α → Bool) : Option α → Option α → Truth
  | some a, some b => some (r a b)
  | _, _ => none

def isNotNull (a : Option α) : Truth := some a.isSome

/-- `IS NOT TRUE`, which is never unknown. -/
def isNotTrue (a : Truth) : Truth := some (a != some true)

/-- The first of the values that is not null. -/
def coalesce : List (Option α) → Option α
  | [] => none
  | some a :: _ => some a
  | none :: rest => coalesce rest

@[simp] theorem compare_known (r : α → α → Bool) (a b : α) :
    compare r (some a) (some b) = some (r a b) := rfl

@[simp] theorem compare_null (r : α → α → Bool) (b : Option α) : compare r none b = none := rfl

@[simp] theorem coalesce_known (a : α) (rest : List (Option α)) :
    coalesce (some a :: rest) = some a := rfl

/-- A value that may be null, before one that may not. -/
theorem coalesce_getD (a : Option α) (b : α) (rest : List (Option α)) :
    coalesce (a :: some b :: rest) = some (a.getD b) := by
  cases a with
  | none => rfl
  | some a => rfl

end Values

/-! ## `LIKE` -/

/-- Does the pattern match the whole text? A backslash takes the next character as it is. -/
def likes : List Char → List Char → Bool
  | [], text => text.isEmpty
  | '\\' :: c :: pattern, text => text.head? == some c && likes pattern text.tail
  | '%' :: pattern, text => text.tails.any (likes pattern)
  | '_' :: pattern, text => !text.isEmpty && likes pattern text.tail
  | c :: pattern, text => text.head? == some c && likes pattern text.tail

/-- `text LIKE pattern`, for a text that is not null. -/
def like (text pattern : String) : Truth := some (likes pattern.toList text.toList)

/-- A character that stands for itself in a pattern. -/
def isPlain (c : Char) : Bool := !(['\\', '%', '_'].contains c)

theorem likes_cons {c : Char} (plain : isPlain c = true) (pattern text : List Char) :
    likes (c :: pattern) text = (text.head? == some c && likes pattern text.tail) := by
  have differs : c ≠ '\\' ∧ c ≠ '%' ∧ c ≠ '_' := by simpa [isPlain] using plain
  obtain ⟨escape, percent, underscore⟩ := differs
  conv_lhs => unfold likes
  split <;> simp_all

/-- `text LIKE 'plain'`. -/
theorem likes_plain {pattern text : List Char} (plain : pattern.all isPlain = true) :
    likes pattern text = true ↔ pattern = text := by
  induction pattern generalizing text with
  | nil => cases text <;> simp [likes]
  | cons c pattern ih =>
      obtain ⟨first, rest⟩ := Bool.and_eq_true_iff.mp (List.all_cons ▸ plain)
      rw [likes_cons first, Bool.and_eq_true, ih rest]
      cases text with
      | nil => simp
      | cons d text => simp [eq_comm (a := d)]

theorem likes_percent (pattern text : List Char) :
    likes ('%' :: pattern) text = text.tails.any (likes pattern) := by
  rw [likes]

/-- `text LIKE '%plain'`. -/
theorem likes_endsWith {pattern text : List Char} (plain : pattern.all isPlain = true) :
    likes ('%' :: pattern) text = pattern.isSuffixOf text := by
  rw [likes_percent, Bool.eq_iff_iff, List.any_eq_true, List.isSuffixOf_iff_suffix]
  constructor
  · rintro ⟨rest, tail, matching⟩
    exact List.mem_tails pattern text |>.mp ((likes_plain plain).mp matching ▸ tail)
  · intro suffix
    exact ⟨pattern, List.mem_tails _ _ |>.mpr suffix, (likes_plain plain).mpr rfl⟩

/-- `text LIKE 'plain%'`. -/
theorem likes_startsWith {pattern text : List Char} (plain : pattern.all isPlain = true) :
    likes (pattern ++ ['%']) text = pattern.isPrefixOf text := by
  induction pattern generalizing text with
  | nil =>
      have everything : likes ['%'] text = true := by
        rw [likes_endsWith rfl, List.isSuffixOf_iff_suffix]
        exact List.nil_suffix
      simp [everything]
  | cons c pattern ih =>
      obtain ⟨first, rest⟩ := Bool.and_eq_true_iff.mp (List.all_cons ▸ plain)
      rw [List.cons_append, likes_cons first, ih rest]
      cases text with
      | nil => rfl
      | cons d text => simp [List.isPrefixOf, Bool.beq_comm]

end SaasTemplate.Sql
