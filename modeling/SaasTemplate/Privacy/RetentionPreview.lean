import SaasTemplate.Privacy.RetentionPass

/-! # The preview of a retention pass

A dry run finds the rows that the pass would find: what a step of the pass writes is never
what a later step selects, but for the artifacts that it expires, which it leaves out.
-/

namespace SaasTemplate.Privacy.Retention

open SaasTemplate.Isolation.LimitedPass

variable {ρ : Type}

/-! ## Updates -/

theorem Table.ext {table table' : Table ρ} (same : table.rows = table'.rows) : table = table' := by
  cases table
  cases table'
  cases same
  rfl

namespace Table

variable {table : Table ρ} {p : Uuid → ρ → Bool} {f : Uuid → ρ → ρ}

theorem row_unique {k : Uuid} {r s : ρ} (here : (k, r) ∈ table.rows) (there : (k, s) ∈ table.rows) :
    r = s :=
  congrArg Prod.snd (List.inj_on_of_nodup_map table.nodup here there rfl)

/-- Rows that an update does not touch are still there. -/
theorem mem_update_of_not {row : Uuid × ρ} (member : row ∈ table.rows) (other : p row.1 row.2 = false) :
    row ∈ (table.update p f).rows :=
  List.mem_map.mpr ⟨row, member, by simp [other]⟩

/-- A selection that sees neither the rows of an update nor what it makes of them. -/
theorem filter_update {q : Uuid × ρ → Bool}
    (before : ∀ row ∈ table.rows, p row.1 row.2 = true → q row = false)
    (after : ∀ row ∈ table.rows, p row.1 row.2 = true → q (row.1, f row.1 row.2) = false) :
    (table.update p f).rows.filter q = table.rows.filter q := by
  have pointwise : ∀ rows : List (Uuid × ρ), (∀ row ∈ rows, row ∈ table.rows) →
      (rows.map fun row => if p row.1 row.2 then (row.1, f row.1 row.2) else row).filter q =
        rows.filter q := by
    intro rows
    induction rows with
    | nil => exact fun _ => rfl
    | cons row rows ih =>
        intro sub
        have rest := ih fun other member => sub other (List.mem_cons_of_mem row member)
        have member := sub row List.mem_cons_self
        rw [List.map_cons, List.filter_cons, List.filter_cons, rest]
        by_cases touched : p row.1 row.2 = true
        · rw [if_pos touched, before row member touched, after row member touched]
          rfl
        · rw [if_neg touched]
  exact pointwise table.rows fun _ member => member

end Table

/-! ## The other tables -/

theorem retainBatch_count (rows : List (Uuid × ρ)) (needs : ρ → Bool) (f : Uuid → ρ → ρ)
    (table : Table ρ) :
    (retainBatch true rows needs f table).1 = (retainBatch false rows needs f table).1 := by
  unfold retainBatch
  simp only [Bool.true_or, if_true]
  split <;> rfl

/-- Among rows with different ids, an update by id counts the ids. -/
theorem length_matched {rows : List (Uuid × ρ)} (nodup : (rows.map (·.1)).Nodup) {ids : List Uuid}
    (distinct : ids.Nodup) {p : ρ → Bool} (found : ∀ k ∈ ids, ∃ r, (k, r) ∈ rows ∧ p r = true) :
    (counted ids p rows).length = ids.length := by
  have sub : (counted ids p rows).Sublist (rows.map (·.1)) := List.filter_sublist.map _
  refine List.Perm.length_eq ((List.perm_ext_iff_of_nodup (nodup.sublist sub) distinct).mpr fun k => ?_)
  constructor
  · intro member
    obtain ⟨row, matching, rfl⟩ := List.mem_map.mp member
    have contains := (Bool.and_eq_true_iff.mp (List.mem_filter.mp matching).2).1
    exact List.contains_iff_mem.mp contains
  · intro member
    obtain ⟨r, here, meets⟩ := found k member
    refine List.mem_map.mpr ⟨(k, r), List.mem_filter.mpr ⟨here, ?_⟩, rfl⟩
    simp [matched, meets, member]

theorem nodup_take_sort {rows : List (Uuid × ρ)} (nodup : (rows.map (·.1)).Nodup) (q : Uuid × ρ → Bool)
    (before : Uuid × ρ → Uuid × ρ → Prop) [DecidableRel before] (limit : Nat) :
    ((((rows.filter q).insertionSort before).take limit).map (·.1)).Nodup := by
  have kept : ((rows.filter q).map (·.1)).Nodup := nodup.sublist (List.filter_sublist.map _)
  have sorted : (((rows.filter q).insertionSort before).map (·.1)).Nodup :=
    ((List.perm_insertionSort before (rows.filter q)).map _).nodup_iff.mpr kept
  exact sorted.sublist ((List.take_sublist _ _).map _)

theorem mem_of_take_sort {rows : List (Uuid × ρ)} {q : Uuid × ρ → Bool}
    {before : Uuid × ρ → Uuid × ρ → Prop} [DecidableRel before] {limit : Nat} {row : Uuid × ρ}
    (member : row ∈ ((rows.filter q).insertionSort before).take limit) : row ∈ rows ∧ q row = true :=
  List.mem_filter.mp (List.mem_insertionSort before |>.mp (List.mem_of_mem_take member))

theorem Table.nodup_select {table : Table ρ} {before : Uuid × ρ → Uuid × ρ → Bool} {p : ρ → Bool}
    {limit : Nat} : ((table.select before p limit).map (·.1)).Nodup :=
  nodup_take_sort table.nodup _ _ _

theorem Table.mem_select {table : Table ρ} {before : Uuid × ρ → Uuid × ρ → Bool} {p : ρ → Bool}
    {limit : Nat} {row : Uuid × ρ} (member : row ∈ table.select before p limit) :
    row ∈ table.rows ∧ p row.2 = true :=
  mem_of_take_sort member

theorem minimiseRetainedAuditEvents_count (settings : Audit.AuditSettings) (now : Time) (limit : Nat)
    (table : Audit.AuditTable) :
    (minimiseRetainedAuditEvents settings now limit true table).1 =
      (minimiseRetainedAuditEvents settings now limit false table).1 := by
  simp only [minimiseRetainedAuditEvents, if_true, Bool.false_eq_true, if_false,
    Audit.minimiseRetainedAuditEvents, Audit.anonymiseBatch, Audit.RetentionRun.count]
  split
  · rfl
  · refine (length_matched table.nodup (nodup_take_sort table.nodup _ _ _) fun k here => ?_).symm
    exact row_of_found here

theorem cleanExpiredDsrIdempotencyKeys_count (now : Time) (limit : Nat)
    (table : Table DataSubjectRequest) :
    (cleanExpiredDsrIdempotencyKeys now limit true table).1 =
      (cleanExpiredDsrIdempotencyKeys now limit false table).1 := by
  simp only [cleanExpiredDsrIdempotencyKeys, Bool.true_or, if_true, Bool.false_or]
  generalize selected : table.select _ (hasExpiredIdempotencyKey now) limit = rows
  have distinct : (rows.map (·.1)).Nodup := selected ▸ table.nodup_select
  have here : ∀ k ∈ rows.map (·.1), ∃ r, (k, r) ∈ table.rows ∧ true = true := by
    intro k member
    obtain ⟨row, inside, rfl⟩ := List.mem_map.mp member
    exact ⟨row.2, (Table.mem_select (selected ▸ inside)).1, rfl⟩
  have same := length_matched table.nodup distinct here
  have shape : matched (rows.map (·.1)) (fun _ : DataSubjectRequest => true) =
      fun row => (rows.map (·.1)).contains row.1 := by
    funext row
    exact Bool.and_true _
  rw [counted, List.length_map, shape] at same
  split
  · rfl
  · exact same.symm

theorem runNonExportRetention_counts (settings : RetentionSettings) (now : Time) (limit : Nat)
    (db : RetentionDb) : (runNonExportRetention settings now limit true db).1 =
      (runNonExportRetention settings now limit false db).1 := by
  simp only [runNonExportRetention, anonymiseRetainedInvites, scrubRetainedOutboxEvents]
  rw [retainBatch_count, retainBatch_count, minimiseRetainedAuditEvents_count,
    cleanExpiredDsrIdempotencyKeys_count]

theorem runNonExportRetention_artifacts (settings : RetentionSettings) (now : Time) (limit : Nat)
    (dryRun : Bool) (db : RetentionDb) :
    (runNonExportRetention settings now limit dryRun db).2.artifacts = db.artifacts := rfl

/-! ## Purges -/

/-- The purge of a row. -/
def purgeOf (row : Uuid × ExportArtifact) : ExportArtifactStoragePurge :=
  ⟨row.1, row.2.status, some row.2.storageBackend, row.2.storageKey.getD ""⟩

/-- Rows of a table whose objects are to be deleted. -/
structure Purgeable (rows : List (Uuid × ExportArtifact)) (table : Table ExportArtifact) : Prop where
  present : ∀ row ∈ rows, row ∈ table.rows
  purgeable : ∀ row ∈ rows, row.2.isPurgeable = true
  stored : ∀ row ∈ rows, row.2.storageKey.isSome = true
  distinct : (rows.map (·.1)).Nodup

theorem PurgeKind.isPurgeable_of_meets {kind : PurgeKind} {a : ExportArtifact}
    (meets : kind.meets a = true) : a.isPurgeable = true ∧ a.storageKey.isSome = true := by
  simp only [PurgeKind.meets, Bool.and_eq_true, Bool.or_eq_true, beq_iff_eq] at meets
  obtain ⟨⟨status, stored⟩, reason⟩ := meets
  refine ⟨?_, stored⟩
  cases kind with
  | cancelled => simp_all [ExportArtifact.isPurgeable, PurgeKind.status]
  | failed => simp_all [ExportArtifact.isPurgeable, PurgeKind.status]
  | expired => simp_all [ExportArtifact.isPurgeable, PurgeKind.status]

theorem mem_listPurgeRetry {kind : PurgeKind} {limit : Nat} {excludeIds : List Uuid}
    {table : Table ExportArtifact} {row : Uuid × ExportArtifact}
    (member : row ∈ listPurgeRetry kind limit excludeIds table) :
    row ∈ table.rows ∧ kind.meets row.2 = true := by
  obtain ⟨here, both⟩ := mem_of_take_sort member
  exact ⟨here, (Bool.and_eq_true_iff.mp both).1⟩

theorem listPurgeRetry_purgeable (kind : PurgeKind) (limit : Nat) (excludeIds : List Uuid)
    (table : Table ExportArtifact) : Purgeable (listPurgeRetry kind limit excludeIds table) table where
  present _ member := (mem_listPurgeRetry member).1
  purgeable _ member := (PurgeKind.isPurgeable_of_meets (mem_listPurgeRetry member).2).1
  stored _ member := (PurgeKind.isPurgeable_of_meets (mem_listPurgeRetry member).2).2
  distinct := nodup_take_sort table.nodup _ _ _

theorem Purgeable.filter {rows : List (Uuid × ExportArtifact)} {table : Table ExportArtifact}
    (h : Purgeable rows table) (q : Uuid × ExportArtifact → Bool) : Purgeable (rows.filter q) table where
  present row member := h.present row (List.mem_filter.mp member).1
  purgeable row member := h.purgeable row (List.mem_filter.mp member).1
  stored row member := h.stored row (List.mem_filter.mp member).1
  distinct := h.distinct.sublist (List.filter_sublist.map _)

theorem storagePurgesFor_eq {rows : List (Uuid × ExportArtifact)} {table : Table ExportArtifact}
    (h : Purgeable rows table) : storagePurgesFor rows = rows.map purgeOf := by
  have each : ∀ rows' : List (Uuid × ExportArtifact), (∀ row ∈ rows', row ∈ rows) →
      storagePurgesFor rows' = rows'.map purgeOf := by
    intro rows'
    induction rows' with
    | nil => exact fun _ => rfl
    | cons row rest ih =>
        intro sub
        have member := sub row List.mem_cons_self
        obtain ⟨key, stored⟩ := Option.isSome_iff_exists.mp (h.stored row member)
        have others := ih fun other inside => sub other (List.mem_cons_of_mem row inside)
        rw [storagePurgesFor] at others ⊢
        rw [List.filterMap_cons_some (b := purgeOf row), others, List.map_cons]
        simp [stored, h.purgeable row member, purgeOf]
  exact each rows fun _ member => member

/-- The table without the storage of some artifacts. -/
def withoutStorageOf (rows : List (Uuid × ExportArtifact)) (table : Table ExportArtifact) :
    Table ExportArtifact :=
  table.update (fun id _ => decide (id ∈ rows.map (·.1))) fun _ a => a.withoutStorage

theorem isPurgeTarget_iff {row other : Uuid × ExportArtifact} {table : Table ExportArtifact}
    (here : row ∈ table.rows) (there : other ∈ table.rows) (stored : row.2.storageKey.isSome = true) :
    isPurgeTarget (purgeOf row) other.1 other.2 = (other.1 == row.1) := by
  by_cases same : other.1 = row.1
  · obtain rfl : other = row := Prod.ext same (Table.row_unique (same ▸ there) here)
    obtain ⟨key, is⟩ := Option.isSome_iff_exists.mp stored
    simp [isPurgeTarget, purgeOf, is]
  · have differs : (other.1 == row.1) = false := beq_false_of_ne same
    simp only [isPurgeTarget, purgeOf, differs, Bool.false_and]

/-- A purge clears its row, and no other. -/
theorem clearPurge_eq {row : Uuid × ExportArtifact} {table : Table ExportArtifact}
    (here : row ∈ table.rows) (purgeable : row.2.isPurgeable = true)
    (stored : row.2.storageKey.isSome = true) :
    clearPurge (purgeOf row) table = (true, withoutStorageOf [row] table) := by
  have found : (table.rows.any fun other =>
      isPurgeTarget (purgeOf row) other.1 other.2 && other.2.isPurgeable) = true := by
    refine List.any_eq_true.mpr ⟨row, here, ?_⟩
    rw [isPurgeTarget_iff here here stored, purgeable, BEq.rfl, Bool.and_true]
  rw [clearPurge, if_pos found]
  congr 1
  refine Table.ext (List.map_congr_left fun other there => ?_)
  rw [isPurgeTarget_iff here there stored]
  simp

theorem withoutStorageOf_cons (row : Uuid × ExportArtifact) {rows : List (Uuid × ExportArtifact)}
    (table : Table ExportArtifact) (fresh : row.1 ∉ rows.map (·.1)) :
    withoutStorageOf rows (withoutStorageOf [row] table) = withoutStorageOf (row :: rows) table := by
  refine Table.ext ?_
  simp only [withoutStorageOf, Table.update, List.map_map]
  refine List.map_congr_left fun other _ => ?_
  simp only [Function.comp_apply]
  by_cases same : other.1 = row.1
  · simp [same, fresh]
  · have single : (decide (other.1 ∈ [row].map (·.1))) = false := by simpa using same
    have others : decide (other.1 ∈ (row :: rows).map (·.1)) = decide (other.1 ∈ rows.map (·.1)) := by
      simp [same]
    rw [single, others, if_neg Bool.false_ne_true]

/-- Every purge of rows that are there is cleared. -/
theorem clearPurges_eq {rows : List (Uuid × ExportArtifact)} {table : Table ExportArtifact}
    (h : Purgeable rows table) :
    clearPurges (rows.map purgeOf) table = (rows.length, withoutStorageOf rows table) := by
  induction rows generalizing table with
  | nil =>
      refine Prod.ext rfl (Table.ext ?_)
      simp [clearPurges, withoutStorageOf, Table.update]
  | cons row rows ih =>
      obtain ⟨fresh, distinct⟩ := List.nodup_cons.mp h.distinct
      have rest : Purgeable rows (withoutStorageOf [row] table) := by
        refine ⟨fun other member => ?_, fun other member => ?_, fun other member => ?_, distinct⟩
        · refine Table.mem_update_of_not (h.present other (List.mem_cons_of_mem row member)) ?_
          have differs : other.1 ≠ row.1 := fun same =>
            fresh (List.mem_map.mpr ⟨other, member, same⟩)
          simp [differs]
        · exact h.purgeable other (List.mem_cons_of_mem row member)
        · exact h.stored other (List.mem_cons_of_mem row member)
      rw [List.map_cons, clearPurges, clearPurge_eq (h.present row List.mem_cons_self)
        (h.purgeable row List.mem_cons_self) (h.stored row List.mem_cons_self)]
      simp only [ih rest, withoutStorageOf_cons row table fresh, List.length_cons, if_true,
        Nat.add_comm]

/-- What a purge step does to the rows that it lists. -/
theorem purgeStep_eq (deletes : ExportArtifactStoragePurge → Bool) (kind : PurgeKind) (limit : Nat)
    (excludeIds : List Uuid) (out : ExportOutcome) :
    let rows := listPurgeRetry kind limit excludeIds out.db.artifacts
    let deleted := rows.filter fun row => deletes (purgeOf row)
    purgeStep deletes (listStep kind limit excludeIds out.db) out =
      ⟨out.processed + deleted.length,
        out.failures ++ (rows.filter fun row => !deletes (purgeOf row)).map purgeOf,
        { out.db with artifacts := withoutStorageOf deleted out.db.artifacts }⟩ := by
  intro rows deleted
  have purgeable := listPurgeRetry_purgeable kind limit excludeIds out.db.artifacts
  have listed : listStep kind limit excludeIds out.db = rows.map purgeOf := by
    unfold listStep
    split
    · rename_i none
      simp only [rows, listPurgeRetry, none, List.take_zero, List.map_nil]
    · exact storagePurgesFor_eq purgeable
  rw [listed, purgeStep, List.filter_map, List.filter_map]
  simp only [Function.comp_def]
  rw [clearPurges_eq (purgeable.filter _)]

/-! ## What a step selects after another one -/

theorem not_meets_withoutStorage (kind : PurgeKind) (a : ExportArtifact) :
    kind.meets a.withoutStorage = false := by
  simp [PurgeKind.meets, ExportArtifact.withoutStorage]

theorem PurgeKind.status_of_meets {kind : PurgeKind} {a : ExportArtifact} (meets : kind.meets a = true) :
    a.status = kind.status := by
  simp only [PurgeKind.meets, Bool.and_eq_true, beq_iff_eq] at meets
  exact meets.1.1

theorem PurgeKind.not_meets {kind : PurgeKind} {a : ExportArtifact} (other : a.status ≠ kind.status) :
    kind.meets a = false := by
  simp [PurgeKind.meets, other]

theorem PurgeKind.status_injective {kind kind' : PurgeKind} (same : kind.status = kind'.status) :
    kind = kind' := by
  cases kind <;> cases kind' <;> first | rfl | cases same

/-- The row under the id of one of these rows. -/
theorem Table.row_of_mem_ids {table : Table ρ} {rows : List (Uuid × ρ)} {row : Uuid × ρ}
    (sub : ∀ other ∈ rows, other ∈ table.rows) (here : row ∈ table.rows)
    (inside : row.1 ∈ rows.map (·.1)) : row ∈ rows := by
  obtain ⟨other, member, same⟩ := List.mem_map.mp inside
  obtain rfl : other = row := Prod.ext same (Table.row_unique (same ▸ sub other member) here)
  exact member

section Selections

variable {kind kind' : PurgeKind} {rows : List (Uuid × ExportArtifact)} {table : Table ExportArtifact}

/-- Clearing artifacts of one kind leaves the lists of the other kinds alone. -/
theorem listPurgeRetry_withoutStorageOf (differs : kind ≠ kind')
    (listed : ∀ row ∈ rows, row ∈ table.rows ∧ kind.meets row.2 = true) (limit : Nat)
    (excludeIds : List Uuid) : listPurgeRetry kind' limit excludeIds (withoutStorageOf rows table) =
      listPurgeRetry kind' limit excludeIds table := by
  unfold listPurgeRetry withoutStorageOf
  rw [Table.filter_update]
  · intro row here inside
    have member := Table.row_of_mem_ids (fun other m => (listed other m).1) here (of_decide_eq_true inside)
    have status := PurgeKind.status_of_meets (listed row member).2
    rw [PurgeKind.not_meets fun same => differs (PurgeKind.status_injective (status.symm.trans same)),
      Bool.false_and]
  · intro row _ _
    rw [not_meets_withoutStorage, Bool.false_and]

theorem listExpiredReady_withoutStorageOf
    (listed : ∀ row ∈ rows, row ∈ table.rows ∧ kind.meets row.2 = true) (now : Time) (limit : Nat) :
    listExpiredReady now limit (withoutStorageOf rows table) = listExpiredReady now limit table := by
  have notReady : ∀ row ∈ table.rows, decide (row.1 ∈ rows.map (·.1)) = true → row.2.status ≠ .ready := by
    intro row here inside
    have member := Table.row_of_mem_ids (fun other m => (listed other m).1) here (of_decide_eq_true inside)
    rw [PurgeKind.status_of_meets (listed row member).2]
    cases kind <;> decide
  unfold listExpiredReady Table.select withoutStorageOf
  rw [Table.filter_update]
  · intro row here inside
    simp [ExportArtifact.isExpiredReady, notReady row here inside]
  · intro row here inside
    simp [ExportArtifact.isExpiredReady, ExportArtifact.withoutStorage, ExportArtifact.withoutMetadata,
      notReady row here inside]

/-- The table after these artifacts were expired. -/
def expiredOf (rows : List (Uuid × ExportArtifact)) (table : Table ExportArtifact) :
    Table ExportArtifact :=
  table.update (fun id _ => decide (id ∈ rows.map (·.1))) fun _ a => a.markedExpired

/-- The artifacts that a pass expires do not come onto its list. -/
theorem listPurgeRetry_expiredOf
    (listed : ∀ row ∈ rows, row ∈ table.rows ∧ row.2.status = .ready) (limit : Nat) :
    listPurgeRetry .expired limit (rows.map (·.1)) (expiredOf rows table) =
      listPurgeRetry .expired limit [] table := by
  unfold listPurgeRetry expiredOf
  rw [Table.filter_update]
  · have same : (table.rows.filter fun row => PurgeKind.expired.meets row.2 &&
        !(rows.map (·.1)).contains row.1) =
          table.rows.filter fun row => PurgeKind.expired.meets row.2 && !([] : List Uuid).contains row.1 := by
      refine List.filter_congr fun row here => ?_
      by_cases inside : row.1 ∈ rows.map (·.1)
      · have member := Table.row_of_mem_ids (fun other m => (listed other m).1) here inside
        have ready := (listed row member).2
        rw [PurgeKind.not_meets (by rw [ready]; decide), Bool.false_and, Bool.false_and]
      · simp [inside]
    rw [same]
  · intro row _ inside
    simp [of_decide_eq_true inside]
  · intro row _ inside
    simp [of_decide_eq_true inside]

end Selections

theorem expireReadyArtifacts_artifacts (now : Time) (rows : List (Uuid × ExportArtifact))
    (db : RetentionDb) : (rows.foldl (fun db row => expireArtifact now row db) db).artifacts =
      expiredOf rows db.artifacts := by
  induction rows generalizing db with
  | nil =>
      refine Table.ext ?_
      simp [expiredOf, Table.update]
  | cons row rows ih =>
      rw [List.foldl_cons, ih]
      refine Table.ext ?_
      simp only [expiredOf, expireArtifact, Table.update, List.map_map]
      refine List.map_congr_left fun other _ => ?_
      simp only [Function.comp_apply]
      by_cases same : other.1 = row.1
      · simp [same, ExportArtifact.markedExpired]
      · have head : (other.1 == row.1) = false := beq_false_of_ne same
        have others : decide (other.1 ∈ (row :: rows).map (·.1)) =
            decide (other.1 ∈ rows.map (·.1)) := by
          simp [same]
        rw [head, others, if_neg Bool.false_ne_true]

/-! ## The export steps -/

section Steps

variable (deletes : ExportArtifactStoragePurge → Bool)

/-- The rows of a list whose objects the storage deletes. -/
def deletedOf (kind : PurgeKind) (limit : Nat) (table : Table ExportArtifact) :
    List (Uuid × ExportArtifact) :=
  (listPurgeRetry kind limit [] table).filter fun row => deletes (purgeOf row)

theorem mem_deletedOf {kind : PurgeKind} {limit : Nat} {table : Table ExportArtifact}
    {row : Uuid × ExportArtifact} (member : row ∈ deletedOf deletes kind limit table) :
    row ∈ table.rows ∧ kind.meets row.2 = true :=
  mem_listPurgeRetry (List.mem_filter.mp member).1

/-- The lists of a pass, all of them selected from the table that it starts with. -/
structure PassLists where
  cancelled : List (Uuid × ExportArtifact)
  failed : List (Uuid × ExportArtifact)
  ready : List (Uuid × ExportArtifact)
  expired : List (Uuid × ExportArtifact)

def passLists (now : Time) (limit : Nat) (table : Table ExportArtifact) : PassLists :=
  let cancelled := deletedOf deletes .cancelled limit table
  let failed := deletedOf deletes .failed (limit - cancelled.length) table
  let ready := listExpiredReady now (limit - (cancelled.length + failed.length)) table
  ⟨cancelled, failed, ready,
    deletedOf deletes .expired (limit - (cancelled.length + failed.length + ready.length)) table⟩

theorem mem_listExpiredReady {now : Time} {limit : Nat} {table : Table ExportArtifact}
    {row : Uuid × ExportArtifact} (member : row ∈ listExpiredReady now limit table) :
    row ∈ table.rows ∧ row.2.status = .ready := by
  obtain ⟨here, ready⟩ := Table.mem_select member
  simp only [ExportArtifact.isExpiredReady, Bool.and_eq_true, beq_iff_eq] at ready
  exact ⟨here, ready.1⟩

theorem expireStep_eq (now : Time) (limit : Nat) (out : ExportOutcome) :
    let rows := listExpiredReady now (limit - out.processed) out.db.artifacts
    (expireStep now limit out).1 = rows.map (·.1) ∧
      (expireStep now limit out).2.processed = out.processed + rows.length ∧
      (expireStep now limit out).2.db.artifacts = expiredOf rows out.db.artifacts := by
  intro rows
  unfold expireStep
  split
  · rename_i none
    have empty : rows = [] := by simp [rows, none, listExpiredReady, Table.select]
    rw [empty]
    refine ⟨rfl, rfl, Table.ext ?_⟩
    simp [expiredOf, Table.update]
  · exact ⟨rfl, by simp [expireReadyArtifacts, rows], expireReadyArtifacts_artifacts now rows out.db⟩

theorem purgeStep_deleted (kind : PurgeKind) (limit : Nat) (excludeIds : List Uuid)
    (out : ExportOutcome) {rows : List (Uuid × ExportArtifact)}
    (listed : (listPurgeRetry kind limit excludeIds out.db.artifacts).filter
      (fun row => deletes (purgeOf row)) = rows) :
    (purgeStep deletes (listStep kind limit excludeIds out.db) out).processed =
        out.processed + rows.length ∧
      (purgeStep deletes (listStep kind limit excludeIds out.db) out).db.artifacts =
        withoutStorageOf rows out.db.artifacts := by
  rw [purgeStep_eq, listed]
  exact ⟨rfl, rfl⟩

/-- What the export steps process, and the artifacts they leave. -/
theorem runExportRetention_eq (now : Time) (limit : Nat) (db : RetentionDb) :
    let lists := passLists deletes now limit db.artifacts
    (runExportRetention deletes now limit db).processed = lists.cancelled.length +
        lists.failed.length + lists.ready.length + lists.expired.length ∧
      (runExportRetention deletes now limit db).db.artifacts = withoutStorageOf lists.expired
        (expiredOf lists.ready (withoutStorageOf lists.failed
          (withoutStorageOf lists.cancelled db.artifacts))) := by
  intro lists
  obtain ⟨count, artifacts⟩ := purgeStep_deleted deletes .cancelled limit [] ⟨0, [], db⟩
    (show _ = lists.cancelled from rfl)
  rw [runExportRetention]
  simp only []
  generalize purgeStep deletes (listStep .cancelled limit [] db) ⟨0, [], db⟩ = cancelled
    at count artifacts ⊢
  rw [Nat.zero_add] at count
  simp only [] at artifacts
  have ofCancelled : ∀ row ∈ lists.cancelled, row ∈ db.artifacts.rows ∧
      PurgeKind.cancelled.meets row.2 = true := fun row member => mem_deletedOf deletes member
  have ofFailed : ∀ row ∈ lists.failed, row ∈ cancelled.db.artifacts.rows ∧
      PurgeKind.failed.meets row.2 = true := by
    intro row member
    obtain ⟨here, meets⟩ := mem_deletedOf deletes member
    refine ⟨?_, meets⟩
    rw [artifacts]
    refine Table.mem_update_of_not here (decide_eq_false fun inside => ?_)
    have other := (ofCancelled row (Table.row_of_mem_ids (fun o m => (ofCancelled o m).1) here inside)).2
    have status := PurgeKind.status_of_meets meets
    rw [PurgeKind.status_of_meets other] at status
    cases status
  have listedFailed : (listPurgeRetry .failed (limit - cancelled.processed) []
      cancelled.db.artifacts).filter (fun row => deletes (purgeOf row)) = lists.failed := by
    rw [artifacts, listPurgeRetry_withoutStorageOf (by decide) ofCancelled, count]
    rfl
  obtain ⟨count', artifacts'⟩ := purgeStep_deleted deletes .failed (limit - cancelled.processed) []
    cancelled listedFailed
  generalize purgeStep deletes (listStep .failed (limit - cancelled.processed) [] cancelled.db)
    cancelled = failed at count' artifacts' ⊢
  have listedReady : listExpiredReady now (limit - failed.processed) failed.db.artifacts =
      lists.ready := by
    rw [artifacts', listExpiredReady_withoutStorageOf ofFailed, artifacts,
      listExpiredReady_withoutStorageOf ofCancelled, count', count]
    rfl
  obtain ⟨ids, count'', artifacts''⟩ := expireStep_eq now limit failed
  rw [listedReady] at ids count'' artifacts''
  generalize expireStep now limit failed = expired at ids count'' artifacts'' ⊢
  have ofReady : ∀ row ∈ lists.ready, row ∈ failed.db.artifacts.rows ∧ row.2.status = .ready :=
    fun row member => mem_listExpiredReady (listedReady ▸ member)
  have listedExpired : (listPurgeRetry .expired (limit - expired.2.processed) expired.1
      expired.2.db.artifacts).filter (fun row => deletes (purgeOf row)) = lists.expired := by
    rw [ids, artifacts'', listPurgeRetry_expiredOf ofReady, artifacts',
      listPurgeRetry_withoutStorageOf (by decide) ofFailed, artifacts,
      listPurgeRetry_withoutStorageOf (by decide) ofCancelled, count'', count', count]
    rfl
  obtain ⟨total, final⟩ := purgeStep_deleted deletes .expired (limit - expired.2.processed) expired.1
    expired.2 listedExpired
  refine ⟨?_, ?_⟩
  · rw [total, count'', count', count]
  · rw [final, artifacts'', artifacts', artifacts]

theorem runExportRetention_failures (always : ∀ purge, deletes purge = true) (now : Time)
    (limit : Nat) (db : RetentionDb) : (runExportRetention deletes now limit db).failures = [] := by
  have none : ∀ (purges : List ExportArtifactStoragePurge) (out : ExportOutcome),
      (purgeStep deletes purges out).failures = out.failures := by
    intro purges out
    simp [purgeStep, always]
  have expiry : ∀ out : ExportOutcome, (expireStep now limit out).2.failures = out.failures := by
    intro out
    unfold expireStep
    split <;> rfl
  simp only [runExportRetention, none, expiry]

end Steps

/-- Where every deletion succeeds, the pass processes what the dry run counts. -/
theorem runExportRetention_processed {deletes : ExportArtifactStoragePurge → Bool}
    (always : ∀ purge, deletes purge = true) (now : Time) (limit : Nat) (db : RetentionDb) :
    (runExportRetention deletes now limit db).processed =
      countExpiredReadyArtifacts now limit db.artifacts := by
  have all : ∀ kind limit table, deletedOf deletes kind limit table = listPurgeRetry kind limit [] table :=
    fun kind limit table => List.filter_eq_self.mpr fun row _ => always (purgeOf row)
  have nothing : ∀ kind table, listPurgeRetry kind 0 [] table = [] := fun kind table => by
    simp [listPurgeRetry]
  have noneReady : ∀ table, listExpiredReady now 0 table = [] := fun table => by
    simp [listExpiredReady, Table.select]
  rw [(runExportRetention_eq deletes now limit db).1, countExpiredReadyArtifacts]
  simp only [passLists, all, Nat.sub_add_eq]
  split
  · rename_i full
    simp [full, nothing, noneReady]
  split
  · rename_i full
    simp [full, nothing, noneReady]
  split
  · rename_i full
    simp [full, nothing]
  · rfl

/-- A dry run shows the counts of the pass, and changes nothing. -/
theorem dry_run_predicts_pass (settings : RetentionSettings) (now : Time) (limit : Nat)
    (db : RetentionDb) (positive : 1 ≤ limit) (deletes : ExportArtifactStoragePurge → Bool)
    (always : ∀ purge, deletes purge = true) :
    ∃ summary, runPrivacyRetentionPass deletes settings now limit true db = (.ok summary, db) ∧
      (runPrivacyRetentionPass deletes settings now limit false db).1 = .ok summary := by
  have enough : ¬ limit < 1 := by omega
  refine ⟨dryRunSummary settings now limit db, ?_, ?_⟩
  · simp [runPrivacyRetentionPass, enough]
  · have failures := runExportRetention_failures deletes always now limit
      (runNonExportRetention settings now limit false db).2
    have processed := runExportRetention_processed always now limit
      (runNonExportRetention settings now limit false db).2
    rw [runPrivacyRetentionPass, if_neg enough, if_neg Bool.false_ne_true]
    simp only [failures, processed, runNonExportRetention_artifacts, dryRunSummary,
      runNonExportRetention_counts]

theorem dry_run_predicts_pass_example :
    ∃ summary, runPrivacyRetentionPass (fun _ => true) exampleSettings 10 5 true exampleDb =
        (.ok summary, exampleDb) ∧
      (runPrivacyRetentionPass (fun _ => true) exampleSettings 10 5 false exampleDb).1 = .ok summary :=
  dry_run_predicts_pass exampleSettings 10 5 exampleDb (by decide) (fun _ => true) fun _ => rfl

end SaasTemplate.Privacy.Retention
