import Mathlib.Algebra.Order.BigOperators.Group.List
import Mathlib.Algebra.Order.Ring.Nat
import SaasTemplate.Exports.Recovery
import SaasTemplate.Privacy.RetentionProgress

/-! # Retention passes that are left alone

Between the statements of a pass other clients may come. Where none does and nothing fails, the
pass does what its model as one step does. Repeated, it deletes the objects of the artifacts that
are over, whatever state the clients have left; no object of another artifact is lost.
-/

set_option linter.unusedSectionVars false

namespace SaasTemplate.Exports

open SaasTemplate.Isolation SaasTemplate.Isolation.Prog
open SaasTemplate.Privacy
open SaasTemplate.Storage (Bytes)
open SaasTemplate.Storage.Local
open Retention (Table PurgeKind listPurgeRetry listExpiredReady storagePurgesFor clearPurges purgeOf
  Purgeable storagePurgesFor_eq clearPurges_eq withoutStorageOf expiredOf listPurgeRetry_purgeable
  listPurgeRetry_withoutStorageOf listExpiredReady_withoutStorageOf listPurgeRetry_expiredOf
  mem_listPurgeRetry mem_listExpiredReady passLists deletedOf isCandidate isCandidate_iff
  withoutStorageOf_append)

variable {τ : Type} [DecidableEq τ] {sha256 : Bytes → String} {db : Db} {t : τ}
  {settings : ExportSettings} {rows : List (Uuid × ExportArtifact)} {now : Time} {limit : Nat}

/-! ## Deletions -/

/-- The objects of these artifacts are gone. -/
def emptied (rows : List (Uuid × ExportArtifact)) (db : Db) : Db :=
  { db with
    objects := fun backend key =>
      if rows.any fun row => row.2.storageBackend == backend && row.2.storageKey == some key then
        .absent
      else db.objects backend key }

theorem emptied_emptied (rows others : List (Uuid × ExportArtifact)) (db : Db) :
    emptied others (emptied rows db) = emptied (rows ++ others) db := by
  simp only [emptied, List.any_append]
  congr 1
  funext backend key
  cases rows.any fun row => row.2.storageBackend == backend && row.2.storageKey == some key with
  | false => rfl
  | true => exact ite_self _

theorem emptied_cons {row : Uuid × ExportArtifact} {key : String}
    (keyed : row.2.storageKey = some key) :
    emptied rows (db.setObject row.2.storageBackend key .absent) = emptied (row :: rows) db := by
  have one : db.setObject row.2.storageBackend key .absent = emptied [row] db := by
    simp only [Db.setObject, emptied]
    congr 1
    funext backend key'
    simp only [List.any_cons, List.any_nil, Bool.or_false, keyed, Function.update_apply]
    grind
  rw [one, emptied_emptied]
  rfl

/-- All the objects are deleted, one after the other. -/
theorem solo_deleteExportStoragePurges (whole : db.lost = none)
    (stored : ∀ row ∈ rows, row.2.storageKey.isSome = true) :
    (machine sha256 τ).solo t (deleteExportStoragePurges settings (rows.map purgeOf)) db =
      some (.ok (rows.map purgeOf, []), emptied rows db) := by
  induction rows generalizing db with
  | nil => rfl
  | cons row rows ih =>
      obtain ⟨key, keyed⟩ := Option.isSome_iff_exists.mp (stored row List.mem_cons_self)
      have deleted : (machine sha256 τ).solo t (deleteObject row.2.storageBackend key) db =
          some (.ok (), db.setObject row.2.storageBackend key .absent) := by
        rw [deleteObject, Machine.solo_bind_ok (solo_storage .done .absent whole rfl)]
        rfl
      have others : (machine sha256 τ).solo t
          (deleteExportStoragePurges settings (rows.map purgeOf))
            (db.setObject row.2.storageBackend key .absent) =
          some (.ok (rows.map purgeOf, []), emptied (row :: rows) db) := by
        rw [ih (by exact whole) fun other member => stored other (List.mem_cons_of_mem _ member),
          emptied_cons keyed]
      simp only [List.map_cons, deleteExportStoragePurges, purgeOf, keyed, Option.getD_some]
      rw [Machine.solo_bind_ok (solo_attempted deleted), Machine.solo_bind_ok others]
      rfl

/-! ## Lists -/

theorem deletedOf_all (kind : PurgeKind) (limit : Nat) (table : Table ExportArtifact) :
    deletedOf (fun _ => true) kind limit table = listPurgeRetry kind limit [] table := by
  simp [deletedOf]

/-- Where no row is passed over. -/
theorem without_none (sees : db.unseen = []) (table : Table ExportArtifact) :
    Table.without db.unseen table = table :=
  Retention.Table.ext (by simp [Table.without, sees])

theorem listed_eq (kind : PurgeKind) (limit : Nat) (excludeIds : List Uuid)
    (table : Table ExportArtifact) :
    (if 0 < limit then storagePurgesFor (listPurgeRetry kind limit excludeIds table) else []) =
      (listPurgeRetry kind limit excludeIds table).map purgeOf := by
  split
  · exact storagePurgesFor_eq (listPurgeRetry_purgeable kind limit excludeIds table)
  · rename_i none
    obtain rfl : limit = 0 := by omega
    rfl

/-- Rows that are still as they were loaded. -/
theorem flushExpired_eq {table : Table ExportArtifact} (present : ∀ row ∈ rows, row ∈ table.rows)
    (distinct : (rows.map (·.1)).Nodup) : flushExpired rows table = expiredOf rows table := by
  induction rows generalizing table with
  | nil => exact Retention.Table.ext (by simp [flushExpired, expiredOf, Retention.Table.update])
  | cons row rows ih =>
      obtain ⟨fresh, distinct⟩ := List.nodup_cons.mp distinct
      have left : ∀ other ∈ rows, other ∈ (table.update (fun k _ => k == row.1) fun _ current =>
          row.2.flush row.2.markedExpired current).rows := by
        intro other member
        refine Table.mem_update_of_not (present other (List.mem_cons_of_mem _ member)) ?_
        have differs : other.1 ≠ row.1 := fun same =>
          fresh (List.mem_map.mpr ⟨other, member, same⟩)
        simp [differs]
      rw [flushExpired, List.foldl_cons]
      refine (ih left distinct).trans (Retention.Table.ext ?_)
      simp only [expiredOf, Retention.Table.update, List.map_map]
      refine List.map_congr_left fun other here => ?_
      simp only [Function.comp_apply]
      by_cases same : other.1 = row.1
      · obtain rfl : other = row :=
          Prod.ext same (Table.row_unique (same ▸ here) (present row List.mem_cons_self))
        simp [fresh, flush_self]
      · have head : (other.1 == row.1) = false := beq_false_of_ne same
        have tail : decide (other.1 ∈ (row :: rows).map (·.1)) =
            decide (other.1 ∈ rows.map (·.1)) := by
          simp [same]
        rw [head, tail, if_neg Bool.false_ne_true]

/-! ## Transactions of the pass -/

section Transactions

variable {ready : List (Uuid × ExportArtifact)} {processed : Nat}

theorem run_listCancelled (sees : db.unseen = []) : run sha256 (.listCancelled limit) db =
    some (.ok ((listPurgeRetry .cancelled limit [] db.artifacts).map purgeOf), db) := by
  rw [run, Db.seen, without_none sees, storagePurgesFor_eq (listPurgeRetry_purgeable ..)]

theorem run_clearAndListFailed (sees : db.unseen = []) (listed : Purgeable rows db.artifacts) :
    run sha256 (.clearAndListFailed (rows.map purgeOf) limit) db =
      some (.ok (rows.length, (listPurgeRetry .failed (limit - rows.length) []
          (withoutStorageOf rows db.artifacts)).map purgeOf),
        { db with artifacts := withoutStorageOf rows db.artifacts }) := by
  simp only [run, clearAndListFailed, clearPurges_eq listed, without_none sees, listed_eq]

theorem run_readExpiredReady (sees : db.unseen = []) (listed : Purgeable rows db.artifacts) :
    run sha256 (.readExpiredReady (rows.map purgeOf) now limit processed) db =
      some (.ok (listExpiredReady now (limit - (processed + rows.length))
        (withoutStorageOf rows db.artifacts)), db) := by
  have nothing : ∀ table, listExpiredReady now 0 table = [] := fun table => by
    simp [listExpiredReady, Retention.Table.select]
  simp only [run, readExpiredReady, clearPurges_eq listed, without_none sees]
  split
  · rfl
  · rename_i none
    rw [show limit - (processed + rows.length) = 0 by omega, nothing]

theorem run_clearExpireAndList (sees : db.unseen = []) (listed : Purgeable rows db.artifacts)
    (present : ∀ row ∈ ready, row ∈ (withoutStorageOf rows db.artifacts).rows)
    (distinct : (ready.map (·.1)).Nodup) :
    run sha256 (.clearExpireAndList (rows.map purgeOf) ready limit processed) db =
      some (.ok (processed + rows.length + ready.length,
          (listPurgeRetry .expired (limit - (processed + rows.length + ready.length))
            (ready.map (·.1)) (expiredOf ready (withoutStorageOf rows db.artifacts))).map purgeOf),
        { db with artifacts := expiredOf ready (withoutStorageOf rows db.artifacts) }) := by
  simp only [run, clearExpireAndList, clearPurges_eq listed, without_none sees,
    flushExpired_eq present distinct, listed_eq]

theorem run_clearPurges (listed : Purgeable rows db.artifacts) :
    run sha256 (.clearPurges (rows.map purgeOf)) db =
      some (.ok rows.length, { db with artifacts := withoutStorageOf rows db.artifacts }) := by
  simp only [run, clearExportStoragePurges, clearPurges_eq listed]

end Transactions

/-! ## The pass -/

/-- What a pass leaves that nobody disturbs: its lists are those of the batch model. -/
def collectedDb (now : Time) (limit : Nat) (db : Db) : Db :=
  let lists := passLists (fun _ => true) now limit db.artifacts
  { emptied (lists.cancelled ++ lists.failed ++ lists.expired) db with
    artifacts := withoutStorageOf lists.expired (expiredOf lists.ready
      (withoutStorageOf lists.failed (withoutStorageOf lists.cancelled db.artifacts))) }

def collectedCount (now : Time) (limit : Nat) (db : Db) : Nat :=
  let lists := passLists (fun _ => true) now limit db.artifacts
  lists.cancelled.length + lists.failed.length + lists.ready.length + lists.expired.length

/-- The lists that the pass finds, one after another, are those of the batch model. -/
theorem lists_of_pass (now : Time) (limit : Nat) (table : Table ExportArtifact) :
    let lists := passLists (fun _ => true) now limit table
    let cleared := withoutStorageOf lists.cancelled table
    let left := withoutStorageOf lists.failed cleared
    listPurgeRetry .cancelled limit [] table = lists.cancelled ∧
      listPurgeRetry .failed (limit - lists.cancelled.length) [] cleared = lists.failed ∧
      listExpiredReady now (limit - (lists.cancelled.length + lists.failed.length)) left =
        lists.ready ∧
      listPurgeRetry .expired
          (limit - (lists.cancelled.length + lists.failed.length + lists.ready.length))
          (lists.ready.map (·.1)) (expiredOf lists.ready left) = lists.expired := by
  intro lists cleared left
  have all := deletedOf_all
  have isCancelled : listPurgeRetry .cancelled limit [] table = lists.cancelled :=
    (all .cancelled limit table).symm
  have ofCancelled : ∀ row ∈ lists.cancelled, row ∈ table.rows ∧
      PurgeKind.cancelled.meets row.2 = true := fun row member =>
    mem_listPurgeRetry (isCancelled ▸ member)
  have isFailed : listPurgeRetry .failed (limit - lists.cancelled.length) [] cleared =
      lists.failed := by
    rw [listPurgeRetry_withoutStorageOf (by decide) ofCancelled]
    exact (all .failed _ table).symm
  have ofFailed : ∀ row ∈ lists.failed, row ∈ cleared.rows ∧
      PurgeKind.failed.meets row.2 = true := fun row member =>
    mem_listPurgeRetry (isFailed ▸ member)
  have isReady : listExpiredReady now (limit - (lists.cancelled.length + lists.failed.length))
      left = lists.ready := by
    rw [listExpiredReady_withoutStorageOf ofFailed, listExpiredReady_withoutStorageOf ofCancelled]
    rfl
  have ofReady : ∀ row ∈ lists.ready, row ∈ left.rows ∧ row.2.status = .ready := fun row member =>
    mem_listExpiredReady (isReady ▸ member)
  refine ⟨isCancelled, isFailed, isReady, ?_⟩
  rw [listPurgeRetry_expiredOf ofReady, listPurgeRetry_withoutStorageOf (by decide) ofFailed,
    listPurgeRetry_withoutStorageOf (by decide) ofCancelled]
  exact (all .expired _ table).symm

/-- The pass is the batch model, together with the deletions. -/
theorem solo_exportRetentionPass (nonExport : Nat) (whole : db.lost = none)
    (sees : db.unseen = []) (positive : 1 ≤ limit) :
    (machine sha256 τ).solo t (exportRetentionPass settings now limit nonExport) db =
      some (.ok (collectedCount now limit db), collectedDb now limit db) := by
  obtain ⟨isCancelled, isFailed, isReady, isExpired⟩ := lists_of_pass now limit db.artifacts
  unfold collectedCount collectedDb
  generalize passLists (fun _ => true) now limit db.artifacts = lists at *
  obtain ⟨cancelled, failed, ready, expired⟩ := lists
  dsimp only at *
  set cleared := withoutStorageOf cancelled db.artifacts
  set left := withoutStorageOf failed cleared
  set after := expiredOf ready left
  have listed : Purgeable cancelled db.artifacts := isCancelled ▸ listPurgeRetry_purgeable ..
  have listedFailed : Purgeable failed cleared := isFailed ▸ listPurgeRetry_purgeable ..
  have listedExpired : Purgeable expired after := isExpired ▸ listPurgeRetry_purgeable ..
  have present : ∀ row ∈ ready, row ∈ left.rows := fun row member =>
    (mem_listExpiredReady (isReady ▸ member)).1
  have distinct : (ready.map (·.1)).Nodup := isReady ▸ Retention.Table.nodup_select
  have first : run sha256 (.listCancelled limit) db = some (.ok (cancelled.map purgeOf), db) :=
    isCancelled ▸ run_listCancelled sees
  let db₁ := { emptied cancelled db with artifacts := cleared }
  have second : run sha256 (.clearAndListFailed (cancelled.map purgeOf) limit)
      (emptied cancelled db) = some (.ok (cancelled.length, failed.map purgeOf), db₁) :=
    isFailed ▸ run_clearAndListFailed sees listed
  have third : run sha256 (.readExpiredReady (failed.map purgeOf) now limit cancelled.length)
      (emptied failed db₁) = some (.ok ready, emptied failed db₁) :=
    isReady ▸ run_readExpiredReady sees listedFailed
  let db₂ := { emptied failed db₁ with artifacts := after }
  have fourth : run sha256 (.clearExpireAndList (failed.map purgeOf) ready limit cancelled.length)
      (emptied failed db₁) = some (.ok (cancelled.length + failed.length + ready.length,
        expired.map purgeOf), db₂) :=
    isExpired ▸ run_clearExpireAndList sees listedFailed present distinct
  have fifth : run sha256 (.clearPurges (expired.map purgeOf)) (emptied expired db₂) =
      some (.ok expired.length, { emptied expired db₂ with
        artifacts := withoutStorageOf expired after }) := run_clearPurges listedExpired
  have whole₁ : (emptied cancelled db).lost = none := whole
  have whole₂ : (emptied failed db₁).lost = none := whole
  have whole₃ : (emptied expired db₂).lost = none := whole
  have deletesFailed : (machine sha256 τ).solo t
      (deleteExportStoragePurges settings (failed.map purgeOf)) db₁ =
      some (.ok (failed.map purgeOf, []), emptied failed db₁) :=
    solo_deleteExportStoragePurges whole listedFailed.stored
  have deletesExpired : (machine sha256 τ).solo t
      (deleteExportStoragePurges settings (expired.map purgeOf)) db₂ =
      some (.ok (expired.map purgeOf, []), emptied expired db₂) :=
    solo_deleteExportStoragePurges whole listedExpired.stored
  rw [exportRetentionPass, Machine.solo_bind_ok (Machine.solo_raiseIf_passed (by omega)),
    Machine.solo_bind_ok (solo_issue whole first),
    Machine.solo_bind_ok (solo_deleteExportStoragePurges whole listed.stored)]
  dsimp only
  rw [Machine.solo_bind_ok (solo_issue whole₁ second), Machine.solo_bind_ok deletesFailed]
  dsimp only
  rw [Machine.solo_bind_ok (solo_issue whole₂ third),
    Machine.solo_bind_ok (solo_issue whole₂ fourth), Machine.solo_bind_ok deletesExpired]
  dsimp only
  rw [Machine.solo_bind_ok (solo_issue whole₃ fifth)]
  have nested : emptied expired (emptied failed (emptied cancelled db)) =
      emptied (cancelled ++ failed ++ expired) db := by
    rw [emptied_emptied, emptied_emptied, List.append_assoc]
  rw [← nested]
  rfl

/-! ## What a pass leaves -/

/-- The artifacts whose objects a pass deletes. -/
def purgedOf (lists : Retention.PassLists) : List (Uuid × ExportArtifact) :=
  lists.cancelled ++ lists.failed ++ lists.expired

/-- What becomes of an artifact. -/
def collected (lists : Retention.PassLists) (row : Uuid × ExportArtifact) : ExportArtifact :=
  if row.1 ∈ (purgedOf lists).map (·.1) then row.2.withoutStorage
  else if row.1 ∈ lists.ready.map (·.1) then row.2.markedExpired
  else row.2

/-- The lists hold artifacts of the table that are to be deleted, or have expired. -/
structure Listed (now : Time) (table : Table ExportArtifact) (lists : Retention.PassLists) :
    Prop where
  purged : ∀ row ∈ purgedOf lists, row ∈ table.rows ∧ isCandidate row.2 = true
  ready : ∀ row ∈ lists.ready, row ∈ table.rows ∧ row.2.isExpiredReady now = true

theorem listed_passLists (now : Time) (limit : Nat) (table : Table ExportArtifact) :
    Listed now table (passLists (fun _ => true) now limit table) where
  purged row member := by
    have of : ∀ {kind n}, row ∈ deletedOf (fun _ => true) kind n table →
        row ∈ table.rows ∧ isCandidate row.2 = true := by
      intro kind n inside
      obtain ⟨here, meets⟩ := Retention.mem_deletedOf _ inside
      exact ⟨here, isCandidate_iff.mpr ⟨kind, meets⟩⟩
    rcases List.mem_append.mp member with first | third
    · rcases List.mem_append.mp first with first | second
      · exact of first
      · exact of second
    · exact of third
  ready _ member := Table.mem_select member

theorem not_ready_of_isCandidate {a : ExportArtifact} (candidate : isCandidate a = true) :
    a.isExpiredReady now = false := by
  obtain ⟨kind, meets⟩ := isCandidate_iff.mp candidate
  rw [ExportArtifact.isExpiredReady, PurgeKind.status_of_meets meets]
  cases kind <;> rfl

section Lists

variable {lists : Retention.PassLists} {table : Table ExportArtifact}
  {row : Uuid × ExportArtifact}

theorem Listed.mem_purged (listed : Listed now table lists) (here : row ∈ table.rows)
    (inside : row.1 ∈ (purgedOf lists).map (·.1)) : row ∈ purgedOf lists :=
  Table.row_of_mem_ids (fun other member => (listed.purged other member).1) here inside

theorem Listed.mem_ready (listed : Listed now table lists) (here : row ∈ table.rows)
    (inside : row.1 ∈ lists.ready.map (·.1)) : row ∈ lists.ready :=
  Table.row_of_mem_ids (fun other member => (listed.ready other member).1) here inside

/-- The four updates of a pass, on one artifact. -/
theorem Listed.updates_eq (listed : Listed now table lists) :
    (withoutStorageOf lists.expired (expiredOf lists.ready (withoutStorageOf lists.failed
      (withoutStorageOf lists.cancelled table)))).rows =
      table.rows.map fun row => (row.1, collected lists row) := by
  rw [withoutStorageOf_append]
  simp only [withoutStorageOf, expiredOf, Retention.Table.update, List.map_map]
  refine List.map_congr_left fun row here => ?_
  have apart : row.1 ∈ lists.ready.map (·.1) → row.1 ∉ (purgedOf lists).map (·.1) := by
    intro ready purged
    have expired := (listed.ready row (listed.mem_ready here ready)).2
    rw [not_ready_of_isCandidate (listed.purged row (listed.mem_purged here purged)).2] at expired
    cases expired
  simp only [purgedOf, List.map_append, List.mem_append] at apart
  simp only [Function.comp_apply, collected, purgedOf, List.map_append, List.mem_append,
    decide_eq_true_eq]
  by_cases first : row.1 ∈ lists.cancelled.map (·.1) ∨ row.1 ∈ lists.failed.map (·.1)
  · have notReady : row.1 ∉ lists.ready.map (·.1) := fun ready => apart ready (.inl first)
    rw [if_pos first, if_neg notReady, if_pos (show (_ ∨ _) ∨ _ from .inl first)]
    exact ite_self _
  rw [if_neg first]
  by_cases ready : row.1 ∈ lists.ready.map (·.1)
  · have notExpired : row.1 ∉ lists.expired.map (·.1) := fun expired => apart ready (.inr expired)
    rw [if_pos ready, if_neg notExpired, if_neg (not_or_intro first notExpired), if_pos ready]
  · rw [if_neg ready, if_neg ready]
    by_cases expired : row.1 ∈ lists.expired.map (·.1)
    · rw [if_pos expired, if_pos (show (_ ∨ _) ∨ _ from .inr expired)]
    · rw [if_neg expired, if_neg (not_or_intro first expired)]

end Lists

theorem has_collectedDb {id : Uuid} {b : ExportArtifact} :
    (collectedDb now limit db).Has id b ↔ ∃ a, db.Has id a ∧
      b = collected (passLists (fun _ => true) now limit db.artifacts) (id, a) := by
  rw [Db.Has, collectedDb, (listed_passLists now limit db.artifacts).updates_eq]
  constructor
  · intro member
    obtain ⟨⟨id', a⟩, here, is⟩ := List.mem_map.mp member
    cases is
    exact ⟨a, here, rfl⟩
  · rintro ⟨a, here, rfl⟩
    exact List.mem_map.mpr ⟨(id, a), here, rfl⟩

/-! ## What is left to collect -/

/-- The passes that an artifact takes at most: a ready one is marked, and then deleted. -/
def collections (a : ExportArtifact) : Nat :=
  if isCandidate a then 1 else if a.status = .ready then 2 else 0

def pendingCollections (db : Db) : Nat :=
  (db.artifacts.rows.map fun row => collections row.2).sum

/-- A pass at this time has something to do for the artifact. -/
def isDue (now : Time) (a : ExportArtifact) : Bool := isCandidate a || a.isExpiredReady now

section Pending

variable {table : Table ExportArtifact} {lists : Retention.PassLists}
  {row : Uuid × ExportArtifact} {a : ExportArtifact}

theorem status_of_isExpiredReady (ready : a.isExpiredReady now = true) : a.status = .ready := by
  simp only [ExportArtifact.isExpiredReady, Bool.and_eq_true, beq_iff_eq] at ready
  exact ready.1

theorem not_isCandidate_of_ready (ready : a.status = .ready) : isCandidate a = false := by
  simp [isCandidate, ExportArtifact.isPurgeable, ready]

theorem collections_withoutStorage (candidate : isCandidate a = true) :
    collections a.withoutStorage = 0 := by
  have bare : isCandidate a.withoutStorage = false := by
    simp [isCandidate, ExportArtifact.withoutStorage]
  have waits : a.withoutStorage.status ≠ .ready := fun (ready : a.status = .ready) => by
    rw [not_isCandidate_of_ready ready] at candidate
    cases candidate
  simp [collections, bare, waits]

theorem collections_markedExpired (ready : a.status = .ready) :
    collections a.markedExpired < collections a := by
  have waits : a.markedExpired.status ≠ .ready := nofun
  simp only [collections, not_isCandidate_of_ready ready, ready, waits, if_true, if_false,
    Bool.false_eq_true]
  split <;> omega

theorem Listed.collections_lt (listed : Listed now table lists)
    (member : row ∈ purgedOf lists ∨ row ∈ lists.ready) :
    collections (collected lists row) < collections row.2 := by
  by_cases purged : row.1 ∈ (purgedOf lists).map (·.1)
  · have here : row ∈ table.rows :=
      member.elim (fun m => (listed.purged row m).1) fun m => (listed.ready row m).1
    have candidate := (listed.purged row (listed.mem_purged here purged)).2
    rw [collected, if_pos purged, collections_withoutStorage candidate, collections,
      if_pos candidate]
    exact Nat.one_pos
  · have ready : row ∈ lists.ready :=
      member.resolve_left fun m => purged (List.mem_map_of_mem m)
    rw [collected, if_neg purged, if_pos (List.mem_map_of_mem ready)]
    exact collections_markedExpired (status_of_isExpiredReady (listed.ready row ready).2)

theorem Listed.collected_eq (listed : Listed now table lists) (here : row ∈ table.rows)
    (purged : row ∉ purgedOf lists) (ready : row ∉ lists.ready) : collected lists row = row.2 := by
  rw [collected, if_neg fun inside => purged (listed.mem_purged here inside),
    if_neg fun inside => ready (listed.mem_ready here inside)]

theorem Listed.collections_le (listed : Listed now table lists) (here : row ∈ table.rows) :
    collections (collected lists row) ≤ collections row.2 := by
  by_cases member : row ∈ purgedOf lists ∨ row ∈ lists.ready
  · exact (listed.collections_lt member).le
  · obtain ⟨purged, ready⟩ := not_or.mp member
    rw [listed.collected_eq here purged ready]

theorem eq_nil_of_take_sort {α : Type} {r : α → α → Prop} [DecidableRel r] {rows : List α}
    (positive : 1 ≤ limit) (nothing : (rows.insertionSort r).take limit = []) : rows = [] := by
  rcases List.take_eq_nil_iff.mp nothing with none | empty
  · omega
  · exact List.length_eq_zero_iff.mp (by rw [← List.length_insertionSort r, empty]; rfl)

/-- A pass finds something, if there is something to find. -/
theorem exists_listed (positive : 1 ≤ limit) (here : row ∈ table.rows)
    (due : isDue now row.2 = true) :
    ∃ other, other ∈ purgedOf (passLists (fun _ => true) now limit table) ∨
      other ∈ (passLists (fun _ => true) now limit table).ready := by
  by_contra nothing
  have found := not_exists.mp nothing
  have none : purgedOf (passLists (fun _ => true) now limit table) = [] :=
    List.eq_nil_iff_forall_not_mem.mpr fun other m => found other (.inl m)
  have noneReady : (passLists (fun _ => true) now limit table).ready = [] :=
    List.eq_nil_iff_forall_not_mem.mpr fun other m => found other (.inr m)
  obtain ⟨rest, noneExpired⟩ := List.append_eq_nil_iff.mp none
  obtain ⟨noneCancelled, noneFailed⟩ := List.append_eq_nil_iff.mp rest
  -- While the lists before it are empty, a list has the whole limit.
  simp only [passLists, deletedOf_all] at noneCancelled noneFailed noneReady noneExpired
  simp only [noneCancelled, List.length_nil, Nat.sub_zero] at noneFailed
  simp only [noneCancelled, noneFailed, List.length_nil, Nat.sub_zero, Nat.add_zero] at noneReady
  simp only [noneCancelled, noneFailed, noneReady, List.length_nil, Nat.sub_zero,
    Nat.add_zero] at noneExpired
  rcases Bool.or_eq_true_iff.mp due with candidate | ready
  · obtain ⟨kind, meets⟩ := isCandidate_iff.mp candidate
    have empty : listPurgeRetry kind limit [] table = [] := by cases kind <;> assumption
    have filtered := eq_nil_of_take_sort positive empty
    have unmet : kind.meets row.2 = false := by
      simpa using List.filter_eq_nil_iff.mp filtered row here
    rw [meets] at unmet
    cases unmet
  · have filtered := eq_nil_of_take_sort positive noneReady
    have waits : row.2.isExpiredReady now = false := by
      simpa using List.filter_eq_nil_iff.mp filtered row here
    rw [ready] at waits
    cases waits

end Pending

theorem pending_collectedDb {id : Uuid} {a : ExportArtifact} (positive : 1 ≤ limit)
    (has : db.Has id a) (due : isDue now a = true) :
    pendingCollections (collectedDb now limit db) < pendingCollections db := by
  have listed := listed_passLists now limit db.artifacts
  obtain ⟨other, member⟩ := exists_listed positive has due
  rw [pendingCollections, collectedDb, listed.updates_eq, List.map_map]
  exact List.sum_lt_sum _ _ (fun row here => listed.collections_le here)
    ⟨other, member.elim (fun m => (listed.purged other m).1) fun m => (listed.ready other m).1,
      listed.collections_lt member⟩

theorem pendingCollections_pos {id : Uuid} {a : ExportArtifact} (has : db.Has id a)
    (due : isDue now a = true) : 0 < pendingCollections db := by
  refine lt_of_lt_of_le ?_ (List.single_le_sum (by simp) _ (List.mem_map_of_mem has))
  rcases Bool.or_eq_true_iff.mp due with candidate | ready
  · rw [collections, if_pos candidate]
    exact Nat.one_pos
  · have status := status_of_isExpiredReady ready
    simp [collections, not_isCandidate_of_ready status, status]

/-! ## Objects and artifacts -/

/-- Every object lies at the key of an artifact, and no two artifacts share a key. -/
structure Filed (db : Db) : Prop where
  published : ∀ backend key bytes, db.bytes backend key = some bytes →
    ∃ id a, db.Has id a ∧ a.storageBackend = backend ∧ a.storageKey = some key
  unique : ∀ id a id' a' key, db.Has id a → db.Has id' a' → a.storageKey = some key →
    a'.storageKey = some key → id = id'

theorem Consistent.filed (consistent : Consistent sha256 db) : Filed db where
  published backend key bytes there :=
    have ⟨id, a, has, at_, keyed, _⟩ := consistent.published backend key bytes there
    ⟨id, a, has, at_, keyed⟩
  unique _ _ id' a' key has has' keyed keyed' :=
    consistent.unique (consistent.keys id' a' key has' keyed') has keyed

theorem collected_storage {lists : Retention.PassLists} {row : Uuid × ExportArtifact}
    {key : String} (keyed : (collected lists row).storageKey = some key) :
    row.2.storageKey = some key := by
  unfold collected at keyed
  split at keyed
  · cases keyed
  · split at keyed <;> exact keyed

theorem collected_storageBackend (lists : Retention.PassLists) (row : Uuid × ExportArtifact) :
    (collected lists row).storageBackend = row.2.storageBackend := by
  unfold collected
  split_ifs <;> rfl

/-- An artifact that is not purged keeps its key. -/
theorem collected_storageKey {lists : Retention.PassLists} {row : Uuid × ExportArtifact}
    (kept : row.1 ∉ (purgedOf lists).map (·.1)) :
    (collected lists row).storageKey = row.2.storageKey := by
  rw [collected, if_neg kept]
  split_ifs <;> rfl

theorem objects_collectedDb {backend : StorageBackend} {key : String} :
    (collectedDb now limit db).objects backend key =
      if (purgedOf (passLists (fun _ => true) now limit db.artifacts)).any fun row =>
        row.2.storageBackend == backend && row.2.storageKey == some key then .absent
      else db.objects backend key := rfl

theorem Filed.collected (filed : Filed db) : Filed (collectedDb now limit db) where
  published backend key bytes there := by
    rw [Db.bytes, objects_collectedDb] at there
    split at there
    · cases there
    · rename_i kept
      obtain ⟨id, a, has, rfl, keyed⟩ := filed.published backend key bytes there
      refine ⟨id, _, has_collectedDb.mpr ⟨a, has, rfl⟩, collected_storageBackend _ _, ?_⟩
      rw [collected_storageKey, keyed]
      intro inside
      have member := (listed_passLists now limit db.artifacts).mem_purged has inside
      exact kept (List.any_eq_true.mpr ⟨_, member, by simp [keyed]⟩)
  unique id b id' b' key has has' keyed keyed' := by
    obtain ⟨a, before, rfl⟩ := has_collectedDb.mp has
    obtain ⟨a', before', rfl⟩ := has_collectedDb.mp has'
    exact filed.unique id a id' a' key before before' (collected_storage keyed)
      (collected_storage keyed')

/-- An artifact for which nothing is due stays as it is, and so does its object. -/
theorem Filed.keeps (filed : Filed db) {id : Uuid} {a : ExportArtifact} (has : db.Has id a)
    (quiet : isDue now a = false) : (collectedDb now limit db).Has id a ∧
      ∀ key, a.storageKey = some key →
        (collectedDb now limit db).objects a.storageBackend key =
          db.objects a.storageBackend key := by
  have listed := listed_passLists now limit db.artifacts
  obtain ⟨settled, waits⟩ := Bool.or_eq_false_iff.mp quiet
  refine ⟨has_collectedDb.mpr ⟨a, has, ?_⟩, fun key keyed => ?_⟩
  · refine (listed.collected_eq has (fun member => ?_) fun member => ?_).symm
    · have candidate := (listed.purged _ member).2
      rw [settled] at candidate
      cases candidate
    · have ready := (listed.ready _ member).2
      rw [waits] at ready
      cases ready
  · rw [objects_collectedDb, if_neg]
    intro purged
    obtain ⟨⟨id', a'⟩, member, is⟩ := List.any_eq_true.mp purged
    simp only [Bool.and_eq_true, beq_iff_eq] at is
    obtain ⟨has', candidate⟩ := listed.purged _ member
    obtain rfl := filed.unique id a id' a' key has has' keyed is.2
    obtain rfl := has_eq has has'
    rw [settled] at candidate
    cases candidate

/-! ## Repeated passes -/

section Repeated

variable (sha256 : Bytes → String) (t : τ) (settings : ExportSettings)

/-- The state after a pass that nobody disturbs. -/
def passAlone (now : Time) (limit nonExport : Nat) (db : Db) : Option Db :=
  match (machine sha256 τ).solo t (exportRetentionPass settings now limit nonExport) db with
  | some (.ok _, db) => some db
  | _ => none

/-- The state after the first `n` passes, of which the `i`-th is at time `now i`. -/
def afterPassesAlone (now : Nat → Time) (limit : Nat) (nonExport : Nat → Nat) (db : Db) :
    Nat → Option Db
  | 0 => some db
  | n + 1 =>
      (afterPassesAlone now limit nonExport db n).bind (passAlone sha256 t settings (now n) limit
        (nonExport n))

end Repeated

/-- The artifact is over, or will be by this time. -/
def isOver (latest : Time) (a : ExportArtifact) : Bool := a.isPurgeable || a.isExpiredReady latest

/-- What `n` passes have done to a database. -/
structure Passed (now : Nat → Time) (latest : Time) (n : Nat) (first db : Db) : Prop where
  lost : db.lost = first.lost
  unseen : db.unseen = first.unseen
  filed : Filed db
  keys : ∀ id b key, db.Has id b → b.storageKey = some key →
    ∃ a, first.Has id a ∧ a.storageKey = some key
  ends : ∀ id a, first.Has id a → isOver latest a = true → ∃ b, db.Has id b ∧
    isOver latest b = true ∧ (isDue latest b = true → pendingCollections db + n ≤
      pendingCollections first)
  keeps : ∀ id a, first.Has id a → (∀ i < n, isDue (now i) a = false) → db.Has id a ∧
    ∀ key, a.storageKey = some key →
      db.objects a.storageBackend key = first.objects a.storageBackend key

section Passed

variable {times : Nat → Time} {latest : Time} {n : Nat} {first : Db}
  {lists : Retention.PassLists} {row : Uuid × ExportArtifact}

theorem isOver_collected (ends : isOver latest row.2 = true) :
    isOver latest (collected lists row) = true := by
  unfold collected
  split_ifs
  · exact ends
  · rfl
  · exact ends

theorem isDue_of_collected (ends : isOver latest row.2 = true)
    (due : isDue latest (collected lists row) = true) : isDue latest row.2 = true := by
  unfold collected at due
  split_ifs at due with purged
  · rcases Bool.or_eq_true_iff.mp due with candidate | ready
    · simp [isCandidate, ExportArtifact.withoutStorage] at candidate
    · exact Bool.or_eq_true_iff.mpr (.inr ready)
  · rcases Bool.or_eq_true_iff.mp ends with purgeable | ready
    · rcases Bool.or_eq_true_iff.mp due with candidate | ready
      · have stored : row.2.storageKey.isSome = true := (Bool.and_eq_true_iff.mp candidate).2
        exact Bool.or_eq_true_iff.mpr (.inl (Bool.and_eq_true_iff.mpr ⟨purgeable, stored⟩))
      · cases ready
    · exact Bool.or_eq_true_iff.mpr (.inr ready)
  · exact due

theorem isDue_mono {a : ExportArtifact} {now : Time} (sooner : latest ≤ now)
    (due : isDue latest a = true) : isDue now a = true := by
  rcases Bool.or_eq_true_iff.mp due with candidate | ready
  · exact Bool.or_eq_true_iff.mpr (.inl candidate)
  · obtain ⟨status, expired⟩ := Bool.and_eq_true_iff.mp ready
    exact Bool.or_eq_true_iff.mpr (.inr (Bool.and_eq_true_iff.mpr
      ⟨status, decide_eq_true ((of_decide_eq_true expired).trans sooner)⟩))

theorem Passed.refl (filed : Filed first) : Passed times latest 0 first first where
  lost := rfl
  unseen := rfl
  filed := filed
  keys _ b _ has keyed := ⟨b, has, keyed⟩
  ends _ a has is := ⟨a, has, is, fun _ => le_rfl⟩
  keeps _ _ has _ := ⟨has, fun _ _ => rfl⟩

/-- One more pass. -/
theorem Passed.step (passed : Passed times latest n first db) (positive : 1 ≤ limit)
    (sooner : latest ≤ times n) :
    Passed times latest (n + 1) first (collectedDb (times n) limit db) where
  lost := passed.lost
  unseen := passed.unseen
  filed := passed.filed.collected
  keys id b key has keyed := by
    obtain ⟨b', has', rfl⟩ := has_collectedDb.mp has
    exact passed.keys id b' key has' (collected_storage keyed)
  ends id a has is := by
    obtain ⟨b, has', is', pending⟩ := passed.ends id a has is
    refine ⟨_, has_collectedDb.mpr ⟨b, has', rfl⟩, isOver_collected is', fun due => ?_⟩
    have due' := isDue_of_collected is' due
    have fewer := pending_collectedDb positive has' (isDue_mono sooner due')
    have before := pending due'
    omega
  keeps id a has quiet := by
    obtain ⟨has', same⟩ := passed.keeps id a has fun i early => quiet i (by omega)
    obtain ⟨has'', same'⟩ := passed.filed.keeps has' (quiet n (by omega))
    exact ⟨has'', fun key keyed => (same' key keyed).trans (same key keyed)⟩

theorem passAlone_eq {now : Time} {nonExport : Nat} (whole : db.lost = none)
    (sees : db.unseen = []) (positive : 1 ≤ limit) :
    passAlone sha256 t settings now limit nonExport db = some (collectedDb now limit db) := by
  rw [passAlone, solo_exportRetentionPass nonExport whole sees positive]

theorem passed_of_afterPassesAlone {nonExport : Nat → Nat} (filed : Filed first)
    (whole : first.lost = none) (sees : first.unseen = []) (positive : 1 ≤ limit) (n : Nat)
    (sooner : ∀ i < n, latest ≤ times i) :
    ∃ db, afterPassesAlone sha256 t settings times limit nonExport first n = some db ∧
      Passed times latest n first db := by
  induction n with
  | zero => exact ⟨first, rfl, .refl filed⟩
  | succ n ih =>
      obtain ⟨db, is, passed⟩ := ih fun i early => sooner i (by omega)
      refine ⟨_, ?_, passed.step positive (sooner n (by omega))⟩
      rw [afterPassesAlone, is, Option.bind_some]
      exact passAlone_eq (passed.lost.trans whole) (passed.unseen.trans sees) positive

end Passed

/-- Wherever the clients of the pipeline stop, passes that nobody disturbs finish their work: as
    many of them as there may be deletions left delete the object of every artifact that is over
    by the first of them, and touch neither an artifact that is not due at any of them nor its
    object. -/
theorem retention_passes_collect {c d : Config τ Statement Answer AppError Db Nat}
    {allowed : τ → Statement → Db → Prop} {times : Nat → Time} {latest : Time}
    (start : PipelineStart settings sha256 c) (run : (machine sha256 τ).Reaches allowed c d)
    (whole : d.db.lost = none) (sees : d.db.unseen = []) (positive : 1 ≤ limit)
    (nonExport : Nat → Nat) (n : Nat) (enough : pendingCollections d.db ≤ n)
    (sooner : ∀ i < n, latest ≤ times i) :
    ∃ db, afterPassesAlone sha256 t settings times limit nonExport d.db n = some db ∧
      (∀ id a, d.db.Has id a → isOver latest a = true →
        (∃ b, db.Has id b ∧ b.isPurgeable = true ∧ b.storageKey = none) ∧
        ∀ key, a.storageKey = some key → ∀ backend, db.bytes backend key = none) ∧
      ∀ id a, d.db.Has id a → (∀ i < n, isDue (times i) a = false) → db.Has id a ∧
        ∀ key, a.storageKey = some key →
          db.objects a.storageBackend key = d.db.objects a.storageBackend key := by
  have filed := (start.consistent_of_reaches run).filed
  obtain ⟨db, is, passed⟩ : ∃ db, afterPassesAlone sha256 t settings times limit nonExport d.db n =
      some db ∧ Passed times latest n d.db db :=
    passed_of_afterPassesAlone filed whole sees positive n sooner
  refine ⟨db, is, fun id a has ends => ?_, passed.keeps⟩
  obtain ⟨b, has', ends', pending⟩ := passed.ends id a has ends
  have settled : isDue latest b = false := by
    by_contra due
    have left := pending (eq_true_of_ne_false due)
    have positive := pendingCollections_pos has' (eq_true_of_ne_false due)
    omega
  obtain ⟨noCandidate, waits⟩ := Bool.or_eq_false_iff.mp settled
  have purgeable : b.isPurgeable = true := by
    rw [isOver, waits, Bool.or_false] at ends'
    exact ends'
  have bare : b.storageKey = none := by
    rw [isCandidate, purgeable, Bool.true_and] at noCandidate
    exact Option.not_isSome_iff_eq_none.mp (by simp [noCandidate])
  refine ⟨⟨b, has', purgeable, bare⟩, fun key keyed backend => ?_⟩
  cases there : db.bytes backend key with
  | none => rfl
  | some bytes =>
      obtain ⟨id', b', has'', -, keyed'⟩ := passed.filed.published backend key bytes there
      obtain ⟨a', before, keyed''⟩ := passed.keys id' b' key has'' keyed'
      obtain rfl := filed.unique id a id' a' key has before keyed keyed''
      obtain rfl := has_eq has' has''
      rw [bare] at keyed'
      cases keyed'

def afterExpiry (_ : Nat) : Time := 10000000

/-- What shows of the artifacts, and of what disturbs a pass. -/
def collectionView (c : Config Bool Statement Answer AppError Db Nat) :
    List (Uuid × Option String × Bool) × Nat × Bool × List Uuid :=
  (c.db.artifacts.rows.map fun row => (row.1, row.2.storageKey, isOver (afterExpiry 0) row.2),
    pendingCollections c.db, c.db.lost.isNone, c.db.unseen)

/-- A worker generates an archive; two passes after its expiry delete it. -/
theorem retention_passes_collect_example :
    ∃ d db, (machine exampleSha256 Bool).Reaches (fun _ _ _ => True) queuedStart d ∧
      (collectionView d).1 = [(10, some generatedKey, true)] ∧
      afterPassesAlone exampleSha256 false exampleSettings afterExpiry 1 (fun _ => 0) d.db 2 =
        some db ∧ db.bytes .local generatedKey = none := by
  have played : ((machine exampleSha256 Bool).play (fun _ _ _ => true) (List.replicate 9 false)
      queuedStart).map collectionView = some ([(10, some generatedKey, true)], 2, true, []) := by
    decide
  obtain ⟨d, run, seen⟩ := Machine.run_of_play statement_checked played
  simp only [collectionView, Prod.mk.injEq] at seen
  obtain ⟨rows, pending, whole, sees⟩ := seen
  have sooner : ∀ i < 2, afterExpiry 0 ≤ afterExpiry i := fun _ _ => le_rfl
  obtain ⟨db, is, collects, -⟩ := retention_passes_collect (t := false) queuedStart_start run
    (Option.isNone_iff_eq_none.mp whole) sees (le_refl 1) (fun _ => 0) 2 pending.le sooner
  have only := List.mem_singleton_self ((10, some generatedKey, true) : Uuid × Option String × Bool)
  rw [← rows] at only
  obtain ⟨⟨id, a⟩, has, shown⟩ := List.mem_map.mp only
  simp only [Prod.mk.injEq] at shown
  obtain ⟨rfl, keyed, ends⟩ := shown
  exact ⟨d, db, run, rows, is, (collects _ a has ends).2 generatedKey keyed .local⟩

end SaasTemplate.Exports
