import Mathlib.Algebra.GroupWithZero.Nat
import SaasTemplate.Isolation.LimitedPass

/-! # Passes that settle the rows they find

A pass gives the first rows that meet a condition, up to a limit, a version that does not meet
it. Each pass then takes as many rows off the queue as its limit allows, and a row that was
found is never found again.
-/

namespace SaasTemplate.Isolation.LimitedPass

variable {κ ρ : Type} [DecidableEq κ]

/-- The rows under some keys get their new versions. -/
def rewritten (keys : List κ) (f : κ → ρ → ρ) (rows : List (κ × ρ)) : List (κ × ρ) :=
  rows.map fun row => if row.1 ∈ keys then (row.1, f row.1 row.2) else row

/-- One pass. -/
def settle (before : κ × ρ → κ × ρ → Bool) (p : ρ → Bool) (limit : Nat) (f : κ → ρ → ρ)
    (rows : List (κ × ρ)) : List (κ × ρ) :=
  rewritten (found before p limit rows) f rows

/-- One pass after the other, each with its limit and its new versions. -/
def settleAll (before : κ × ρ → κ × ρ → Bool) (p : ρ → Bool) (passes : List (Nat × (κ → ρ → ρ)))
    (rows : List (κ × ρ)) : List (κ × ρ) :=
  passes.foldl (fun rows pass => settle before p pass.1 pass.2 rows) rows

def eligible (p : ρ → Bool) (rows : List (κ × ρ)) : List (κ × ρ) := rows.filter fun row => p row.2

variable {before : κ × ρ → κ × ρ → Bool} {p : ρ → Bool} {limit : Nat} {f : κ → ρ → ρ} {k : κ}
  {r : ρ} {rows : List (κ × ρ)} {keys : List κ}

@[simp] theorem keys_rewritten : (rewritten keys f rows).map (·.1) = rows.map (·.1) := by
  simp only [rewritten, List.map_map]
  refine List.map_congr_left fun row _ => ?_
  simp only [Function.comp_apply]
  split <;> rfl

@[simp] theorem keys_settle : (settle before p limit f rows).map (·.1) = rows.map (·.1) :=
  keys_rewritten

theorem mem_rewritten : (k, r) ∈ rewritten keys f rows ↔
    (k ∉ keys ∧ (k, r) ∈ rows) ∨ (k ∈ keys ∧ ∃ s, (k, s) ∈ rows ∧ r = f k s) := by
  simp only [rewritten, List.mem_map]
  constructor
  · rintro ⟨row, member, becomes⟩
    by_cases here : row.1 ∈ keys
    · rw [if_pos here] at becomes
      cases becomes
      exact .inr ⟨here, row.2, member, rfl⟩
    · rw [if_neg here] at becomes
      cases becomes
      exact .inl ⟨here, member⟩
  · rintro (⟨other, member⟩ | ⟨here, s, member, rfl⟩)
    · exact ⟨(k, r), member, if_neg other⟩
    · exact ⟨(k, s), member, if_pos here⟩

/-- A row that is found meets the condition: another row under its key does not exist. -/
theorem meets_of_found (nodup : (rows.map (·.1)).Nodup) (member : (k, r) ∈ rows)
    (here : k ∈ found before p limit rows) : p r = true := by
  obtain ⟨s, there, meets⟩ := row_of_found here
  have same : r = s := congrArg Prod.snd (List.inj_on_of_nodup_map nodup member there rfl)
  exact same ▸ meets

theorem mem_settle_of_not (nodup : (rows.map (·.1)).Nodup) (member : (k, r) ∈ rows)
    (rest : p r = false) : (k, r) ∈ settle before p limit f rows := by
  refine mem_rewritten.mpr (.inl ⟨fun here => ?_, member⟩)
  exact Bool.false_ne_true (rest ▸ meets_of_found nodup member here)

/-- The batch is as long as the limit and the queue allow. -/
theorem length_batch (nodup : (rows.map (·.1)).Nodup) :
    ((eligible p rows).filter fun row => row.1 ∈ found before p limit rows).length =
      min limit (eligible p rows).length := by
  have distinct : ((eligible p rows).map (·.1)).Nodup := nodup.sublist (List.filter_sublist.map _)
  have sorted := (List.perm_insertionSort (fun a b => before a b) (eligible p rows)).map (·.1)
  have found_nodup : (found before p limit rows).Nodup :=
    (sorted.nodup_iff.mpr distinct).sublist ((List.take_sublist limit _).map _)
  have same : (((eligible p rows).filter fun row => row.1 ∈ found before p limit rows).map
      (·.1)).Perm (found before p limit rows) := by
    refine (List.perm_ext_iff_of_nodup (distinct.sublist (List.filter_sublist.map _))
      found_nodup).mpr fun k => ?_
    constructor
    · intro member
      obtain ⟨row, inside, rfl⟩ := List.mem_map.mp member
      exact of_decide_eq_true (List.mem_filter.mp inside).2
    · intro here
      obtain ⟨r, member, meets⟩ := row_of_found here
      exact List.mem_map.mpr ⟨(k, r), List.mem_filter.mpr
        ⟨List.mem_filter.mpr ⟨member, meets⟩, decide_eq_true here⟩, rfl⟩
  have length := same.length_eq
  rw [List.length_map] at length
  rw [length]
  simp [found, eligible]

/-! ## Rows that are settled -/

/-- No row under the key meets the condition. -/
def Settled (p : ρ → Bool) (k : κ) (rows : List (κ × ρ)) : Prop := ∀ r, (k, r) ∈ rows → p r = false

theorem Settled.not_found (h : Settled p k rows) : k ∉ found before p limit rows := by
  intro here
  obtain ⟨r, member, meets⟩ := row_of_found here
  exact Bool.false_ne_true (h r member ▸ meets)

section Settles

variable (settles : ∀ k r, p (f k r) = false)
include settles

/-- What a pass finds, it changes. -/
theorem changed_of_found (nodup : (rows.map (·.1)).Nodup) (member : (k, r) ∈ rows)
    (here : k ∈ found before p limit rows) :
    f k r ≠ r ∧ (k, f k r) ∈ settle before p limit f rows := by
  refine ⟨fun same => ?_, mem_rewritten.mpr (.inr ⟨here, r, member, rfl⟩)⟩
  have meets := meets_of_found nodup member here
  rw [← same, settles k r] at meets
  exact Bool.false_ne_true meets

theorem settled_of_found (here : k ∈ found before p limit rows) :
    Settled p k (settle before p limit f rows) := by
  intro r member
  obtain ⟨other, _⟩ | ⟨_, s, _, rfl⟩ := mem_rewritten.mp member
  · exact absurd here other
  · exact settles k s

theorem Settled.settle (h : Settled p k rows) :
    Settled p k (settle before p limit f rows) := by
  intro r member
  obtain ⟨_, there⟩ | ⟨_, s, _, rfl⟩ := mem_rewritten.mp member
  · exact h r there
  · exact settles k s

theorem eligible_rewritten : eligible p (rewritten keys f rows) =
    (eligible p rows).filter fun row => row.1 ∉ keys := by
  induction rows with
  | nil => rfl
  | cons row rows ih =>
      simp only [eligible, rewritten, List.map_cons, List.filter_cons] at ih ⊢
      rw [ih]
      by_cases here : row.1 ∈ keys
      · rw [if_pos here, settles row.1 row.2]
        by_cases meets : p row.2 = true <;> simp [meets, here]
      · rw [if_neg here]
        by_cases meets : p row.2 = true <;> simp [meets, here]

/-- A pass takes as many rows off the queue as it finds. -/
theorem length_eligible_settle (nodup : (rows.map (·.1)).Nodup) :
    (eligible p (LimitedPass.settle before p limit f rows)).length =
      (eligible p rows).length - limit := by
  rw [LimitedPass.settle, eligible_rewritten settles]
  have batch : ((eligible p rows).filter fun row => row.1 ∈ found before p limit rows).length = _ :=
    length_batch nodup
  have both := List.length_eq_length_filter_add (l := eligible p rows) fun row =>
    row.1 ∈ found before p limit rows
  simp only [← decide_not] at both
  omega

end Settles

/-! ## Many passes -/

variable {passes : List (Nat × (κ → ρ → ρ))}

@[simp] theorem keys_settleAll : (settleAll before p passes rows).map (·.1) = rows.map (·.1) := by
  induction passes generalizing rows with
  | nil => rfl
  | cons pass passes ih => exact ih.trans keys_settle

/-- A row that does not meet the condition stays as it is. -/
theorem mem_settleAll_of_not (nodup : (rows.map (·.1)).Nodup) (member : (k, r) ∈ rows)
    (rest : p r = false) : (k, r) ∈ settleAll before p passes rows := by
  induction passes generalizing rows with
  | nil => exact member
  | cons pass passes ih =>
      exact ih (by rwa [keys_settle]) (mem_settle_of_not nodup member rest)

theorem Settled.settleAll (settles : ∀ pass ∈ passes, ∀ k r, p (pass.2 k r) = false)
    (h : Settled p k rows) : Settled p k (settleAll before p passes rows) := by
  induction passes generalizing rows with
  | nil => exact h
  | cons pass passes ih =>
      obtain ⟨first, rest⟩ := List.forall_mem_cons.mp settles
      exact ih rest (h.settle first)

theorem length_eligible_settleAll (settles : ∀ pass ∈ passes, ∀ k r, p (pass.2 k r) = false)
    (nodup : (rows.map (·.1)).Nodup) :
    (eligible p (settleAll before p passes rows)).length =
      (eligible p rows).length - (passes.map (·.1)).sum := by
  induction passes generalizing rows with
  | nil => rfl
  | cons pass passes ih =>
      obtain ⟨first, rest⟩ := List.forall_mem_cons.mp settles
      have kept : ((settle before p pass.1 pass.2 rows).map (·.1)).Nodup := by rwa [keys_settle]
      calc (eligible p (settleAll before p passes (settle before p pass.1 pass.2 rows))).length
          = (eligible p (settle before p pass.1 pass.2 rows)).length - (passes.map (·.1)).sum :=
            ih rest kept
        _ = (eligible p rows).length - pass.1 - (passes.map (·.1)).sum := by
            rw [length_eligible_settle first nodup]
        _ = (eligible p rows).length - ((pass :: passes).map (·.1)).sum := by
            rw [Nat.sub_sub, List.map_cons, List.sum_cons]

end SaasTemplate.Isolation.LimitedPass
