import Mathlib.Algebra.BigOperators.Group.Finset.Basic
import Mathlib.Algebra.Order.Ring.Nat
import Mathlib.Data.List.Dedup
import Mathlib.Logic.Function.Basic

/-! # Counts by group

Dictionaries that hold a zero for each key, and then what `GROUP BY` counts. They hold the
number of rows of each key, in whatever order the database returns its groups.
-/

set_option linter.unusedSectionVars false

namespace SaasTemplate.Sql

variable {κ μ ν : Type} [DecidableEq κ] [DecidableEq μ]

/-- The rows of a key. -/
def occurrences (keys : List κ) (key : κ) : Nat := keys.count key

/-- One order of what `SELECT key, count(*) ... GROUP BY key` returns. -/
def groupCounts (keys : List κ) : List (κ × Nat) :=
  keys.dedup.map fun key => (key, occurrences keys key)

/-- Each key that occurs, with its count, in any order. -/
structure Grouped (keys : List κ) (groups : List (κ × Nat)) : Prop where
  distinct : (groups.map (·.1)).Nodup
  occurs : ∀ key, key ∈ groups.map (·.1) ↔ key ∈ keys
  counts : ∀ group ∈ groups, group.2 = occurrences keys group.1

theorem grouped_groupCounts (keys : List κ) : Grouped keys (groupCounts keys) where
  distinct := by
    have same : (groupCounts keys).map (·.1) = keys.dedup := by
      rw [groupCounts, List.map_map]
      exact List.map_id _
    rw [same]
    exact keys.nodup_dedup
  occurs key := by simp [groupCounts]
  counts group member := by
    obtain ⟨key, -, rfl⟩ := List.mem_map.mp member
    rfl

/-- How a database groups, in an order of its own. -/
structure Grouping where
  groups {κ : Type} [DecidableEq κ] : List κ → List (κ × Nat)
  grouped {κ : Type} [DecidableEq κ] (keys : List κ) : Grouped keys (groups keys)

def Grouping.plain : Grouping := ⟨groupCounts, grouped_groupCounts⟩

/-! ## Dictionaries -/

/-- `dictionary[key] = value`. -/
def setItem (key : κ) (value : ν) : List (κ × ν) → List (κ × ν)
  | [] => [(key, value)]
  | (k, v) :: rest => if k = key then (key, value) :: rest else (k, v) :: setItem key value rest

/-- `dictionary[outer][inner] = value`, which fails where there is no `outer`. -/
def setNested (outer : κ) (inner : μ) (value : ν) :
    List (κ × List (μ × ν)) → Option (List (κ × List (μ × ν)))
  | [] => none
  | (k, items) :: rest =>
      if k = outer then some ((k, setItem inner value items) :: rest)
      else (setNested outer inner value rest).map ((k, items) :: ·)

/-- A value for each key. -/
def tabulate (keys : List κ) (f : κ → ν) : List (κ × ν) := keys.map fun key => (key, f key)

def tabulateNested (outers : List κ) (inners : List μ) (f : κ × μ → ν) : List (κ × List (μ × ν)) :=
  tabulate outers fun outer => tabulate inners fun inner => f (outer, inner)

/-- The values after some are assigned. -/
def assigned (groups : List (κ × ν)) (f : κ → ν) : κ → ν :=
  groups.foldl (fun f group => Function.update f group.1 group.2) f

theorem tabulateNested_cons (outer : κ) (outers : List κ) (inners : List μ) (f : κ × μ → ν) :
    tabulateNested (outer :: outers) inners f =
      (outer, tabulate inners fun inner => f (outer, inner)) ::
        tabulateNested outers inners f := rfl

theorem tabulate_congr {keys : List κ} {f g : κ → ν} (same : ∀ key ∈ keys, f key = g key) :
    tabulate keys f = tabulate keys g :=
  List.map_congr_left fun key member => by rw [same key member]

theorem setItem_tabulate {key : κ} {value : ν} {keys : List κ} (f : κ → ν) (distinct : keys.Nodup)
    (known : key ∈ keys) :
    setItem key value (tabulate keys f) = tabulate keys (Function.update f key value) := by
  induction keys with
  | nil => cases known
  | cons k keys ih =>
      obtain ⟨fresh, distinct⟩ := List.nodup_cons.mp distinct
      simp only [tabulate, List.map_cons, setItem] at ih ⊢
      by_cases same : k = key
      · subst same
        rw [if_pos rfl, Function.update_self]
        congr 1
        refine List.map_congr_left fun other member => ?_
        have differs : other ≠ k := fun is => fresh (is ▸ member)
        rw [Function.update_of_ne differs]
      · have later := (List.mem_cons.mp known).resolve_left (Ne.symm same)
        rw [if_neg same, Function.update_of_ne same, ih distinct later]

theorem setNested_tabulate {outer : κ} {inner : μ} {value : ν} {outers : List κ} {inners : List μ}
    (f : κ × μ → ν) (distinct : outers.Nodup) (distinct' : inners.Nodup) (known : outer ∈ outers)
    (known' : inner ∈ inners) :
    setNested outer inner value (tabulateNested outers inners f) =
      some (tabulateNested outers inners (Function.update f (outer, inner) value)) := by
  induction outers with
  | nil => cases known
  | cons k outers ih =>
      obtain ⟨fresh, distinct⟩ := List.nodup_cons.mp distinct
      have others : ∀ {k' : κ}, k' ≠ outer →
          tabulate inners (fun i => Function.update f (outer, inner) value (k', i)) =
            tabulate inners fun i => f (k', i) := fun differs =>
        tabulate_congr fun i _ =>
          Function.update_of_ne (fun is => differs (Prod.mk.inj is).1) _ _
      rw [tabulateNested_cons, tabulateNested_cons, setNested]
      by_cases same : k = outer
      · subst same
        have head : (fun i => Function.update f (k, inner) value (k, i)) =
            Function.update (fun i => f (k, i)) inner value := by
          funext i
          simp [Function.update_apply]
        have tail : tabulateNested outers inners (Function.update f (k, inner) value) =
            tabulateNested outers inners f := by
          refine tabulate_congr fun k' member => others fun is => fresh (is ▸ member)
        rw [if_pos rfl, setItem_tabulate _ distinct' known', head, tail]
      · have later := (List.mem_cons.mp known).resolve_left (Ne.symm same)
        rw [if_neg same, ih distinct later, others same]
        rfl

/-! ## Filling -/

/-- `for key, count in groups: dictionary[key] = count`. -/
def fill (groups : List (κ × ν)) (items : List (κ × ν)) : List (κ × ν) :=
  groups.foldl (fun items group => setItem group.1 group.2 items) items

/-- The same in a dictionary of dictionaries. -/
def fillNested (groups : List ((κ × μ) × ν)) (items : List (κ × List (μ × ν))) :
    Option (List (κ × List (μ × ν))) :=
  groups.foldlM (fun items group => setNested group.1.1 group.1.2 group.2 items) items

theorem fill_tabulate {groups : List (κ × ν)} {keys : List κ} (f : κ → ν) (distinct : keys.Nodup)
    (known : ∀ group ∈ groups, group.1 ∈ keys) :
    fill groups (tabulate keys f) = tabulate keys (assigned groups f) := by
  induction groups generalizing f with
  | nil => rfl
  | cons group groups ih =>
      rw [fill, List.foldl_cons, setItem_tabulate f distinct (known group List.mem_cons_self)]
      exact ih _ fun other member => known other (List.mem_cons_of_mem _ member)

theorem fillNested_tabulate {groups : List ((κ × μ) × ν)} {outers : List κ} {inners : List μ}
    (f : κ × μ → ν) (distinct : outers.Nodup) (distinct' : inners.Nodup)
    (known : ∀ group ∈ groups, group.1.1 ∈ outers ∧ group.1.2 ∈ inners) :
    fillNested groups (tabulateNested outers inners f) =
      some (tabulateNested outers inners (assigned groups f)) := by
  induction groups generalizing f with
  | nil => rfl
  | cons group groups ih =>
      obtain ⟨outer, inner⟩ := known group List.mem_cons_self
      rw [fillNested, List.foldlM_cons, setNested_tabulate f distinct distinct' outer inner]
      exact ih _ fun other member => known other (List.mem_cons_of_mem _ member)

theorem assigned_of_not_mem {groups : List (κ × ν)} {key : κ} (f : κ → ν)
    (none : key ∉ groups.map (·.1)) : assigned groups f key = f key := by
  induction groups generalizing f with
  | nil => rfl
  | cons group groups ih =>
      rw [List.map_cons, List.mem_cons, not_or] at none
      exact (ih _ none.2).trans (Function.update_of_ne none.1 _ _)

theorem assigned_of_mem {groups : List (κ × ν)} {group : κ × ν} (f : κ → ν)
    (distinct : (groups.map (·.1)).Nodup) (member : group ∈ groups) :
    assigned groups f group.1 = group.2 := by
  induction groups generalizing f with
  | nil => cases member
  | cons first groups ih =>
      obtain ⟨fresh, distinct⟩ := List.nodup_cons.mp distinct
      rcases List.mem_cons.mp member with rfl | later
      · exact (assigned_of_not_mem _ fresh).trans (Function.update_self _ _ _)
      · exact ih _ distinct later

/-- What `GROUP BY` counts, over zeros, is the count of every key. -/
theorem Grouped.assigned_eq {keys : List κ} {groups : List (κ × Nat)}
    (grouped : Grouped keys groups) :
    assigned groups (fun _ => 0) = fun key => occurrences keys key := by
  funext key
  by_cases occurs : key ∈ groups.map (·.1)
  · obtain ⟨group, member, rfl⟩ := List.mem_map.mp occurs
    rw [assigned_of_mem _ grouped.distinct member, grouped.counts group member]
  · rw [assigned_of_not_mem _ occurs]
    exact (List.count_eq_zero.mpr fun member => occurs ((grouped.occurs key).mpr member)).symm

theorem Grouped.fill_eq {keys known : List κ} {groups : List (κ × Nat)}
    (grouped : Grouped keys groups) (distinct : known.Nodup) (all : ∀ key ∈ keys, key ∈ known) :
    fill groups (tabulate known fun _ => 0) = tabulate known fun key => occurrences keys key := by
  rw [fill_tabulate _ distinct fun group member =>
    all _ ((grouped.occurs _).mp (List.mem_map_of_mem member)), grouped.assigned_eq]

theorem Grouped.fillNested_eq {keys : List (κ × μ)} {outers : List κ} {inners : List μ}
    {groups : List ((κ × μ) × Nat)} (grouped : Grouped keys groups) (distinct : outers.Nodup)
    (distinct' : inners.Nodup) (all : ∀ key ∈ keys, key.1 ∈ outers ∧ key.2 ∈ inners) :
    fillNested groups (tabulateNested outers inners fun _ => 0) =
      some (tabulateNested outers inners fun key => occurrences keys key) := by
  rw [fillNested_tabulate _ distinct distinct' fun group member =>
    all _ ((grouped.occurs _).mp (List.mem_map_of_mem member)), grouped.assigned_eq]

/-! ## Reading -/

theorem mem_tabulate {keys : List κ} {f : κ → ν} {item : κ × ν} :
    item ∈ tabulate keys f ↔ item.1 ∈ keys ∧ item.2 = f item.1 := by
  constructor
  · intro member
    obtain ⟨key, known, rfl⟩ := List.mem_map.mp member
    exact ⟨known, rfl⟩
  · rintro ⟨known, is⟩
    exact List.mem_map.mpr ⟨item.1, known, Prod.ext rfl is.symm⟩

theorem lookup_tabulate {keys : List κ} {key : κ} (f : κ → ν) (known : key ∈ keys) :
    (tabulate keys f).lookup key = some (f key) := by
  induction keys with
  | nil => cases known
  | cons k keys ih =>
      rw [tabulate, List.map_cons, List.lookup_cons]
      by_cases same : key = k
      · rw [same, BEq.rfl]
      · have later := (List.mem_cons.mp known).resolve_left same
        rw [beq_false_of_ne same]
        exact ih later

theorem setItem_append {front : List (κ × ν)} {item : κ × ν} (fresh : item.1 ∉ front.map (·.1)) :
    setItem item.1 item.2 front = front ++ [item] := by
  induction front with
  | nil => rfl
  | cons first front ih =>
      rw [List.map_cons, List.mem_cons, not_or] at fresh
      rw [setItem, if_neg (Ne.symm fresh.1), ih fresh.2, List.cons_append]

theorem fill_append {items front : List (κ × ν)} (distinct : ((front ++ items).map (·.1)).Nodup) :
    fill items front = front ++ items := by
  induction items generalizing front with
  | nil => exact (List.append_nil front).symm
  | cons item items ih =>
      have fresh : item.1 ∉ front.map (·.1) := by
        rw [List.map_append, List.nodup_append] at distinct
        exact fun member => distinct.2.2 _ member _ (List.mem_map_of_mem List.mem_cons_self) rfl
      rw [List.append_cons] at distinct ⊢
      rw [fill, List.foldl_cons, setItem_append fresh]
      exact ih distinct

/-- A dictionary that is built from items with different keys holds these items. -/
theorem fill_nil {items : List (κ × ν)} (distinct : (items.map (·.1)).Nodup) :
    fill items [] = items :=
  fill_append distinct

/-! ## Totals -/

/-- Each row is counted under its key. -/
theorem sum_counts {keys known : List κ} (distinct : known.Nodup)
    (all : ∀ key ∈ keys, key ∈ known) :
    (known.map fun key => occurrences keys key).sum = keys.length := by
  have total : ∑ key ∈ known.toFinset, (keys : Multiset κ).count key = (keys : Multiset κ).card :=
    Multiset.sum_count_eq_card fun key member => List.mem_toFinset.mpr (all key member)
  rw [List.sum_toFinset _ distinct] at total
  simpa [occurrences] using total

theorem sum_counts_nested {keys : List (κ × μ)} {outers : List κ} {inners : List μ}
    (distinct : outers.Nodup) (distinct' : inners.Nodup)
    (all : ∀ key ∈ keys, key.1 ∈ outers ∧ key.2 ∈ inners) :
    (outers.map fun outer => (inners.map fun inner => occurrences keys (outer, inner)).sum).sum =
      keys.length := by
  have flat := sum_counts (distinct.product distinct') fun key member =>
    List.mem_product.mpr (all key member)
  rw [← flat]
  clear flat all
  induction outers with
  | nil => rfl
  | cons outer outers ih =>
      rw [List.map_cons, List.sum_cons, ih distinct.of_cons, List.product_cons, List.map_append,
        List.sum_append, List.map_map]
      rfl

end SaasTemplate.Sql
