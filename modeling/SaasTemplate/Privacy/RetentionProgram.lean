import SaasTemplate.Isolation.Phases
import SaasTemplate.Privacy.RetentionPass

/-! # The export steps of the retention as a program

The pass next to other clients: four transactions, and between them the deletions of what the
transaction before has listed. A deletion is a statement of its own, outside of transactions.
-/

set_option linter.unusedSectionVars false

namespace SaasTemplate.Privacy

open SaasTemplate.Isolation SaasTemplate.Isolation.Prog
open Retention (PurgeKind storagePurgesFor)

inductive PassStatement where
  | sql (s : Statement)
  | cancelledErasurePurgeRetry
  | purgeRetryIds (kind : PurgeKind) (excludeIds : List Uuid)
  | deleteObject (purge : ExportArtifactStoragePurge)

/-- What a statement returns when it succeeds. -/
abbrev PassAnswer : PassStatement → Type
  | .sql s => Answer s
  | .cancelledErasurePurgeRetry => List (Uuid × ExportArtifact)
  | .purgeRetryIds _ _ => List Uuid
  | .deleteObject _ => Unit

abbrev PassTx (α : Type) : Type := Prog PassStatement PassAnswer AppError α

abbrev passSql (s : Statement) : PassTx (Answer s) := stmt (PassStatement.sql s)

/-- A program of the privacy services. -/
def lifted {α : Type} : Tx α → PassTx α
  | .done r => .done r
  | .call s k => .call (.sql s) fun r => lifted (k r)

def passTransaction {α : Type} (body : PassTx α) : PassTx α :=
  transaction (.sql .commit) (.sql .rollback) body

/-! ## The services -/

def listCancelledErasureStoragePurges (limit : Nat) : PassTx (List ExportArtifactStoragePurge) := do
  let rows : List (Uuid × ExportArtifact) ← stmt PassStatement.cancelledErasurePurgeRetry
  pure (storagePurgesFor (rows.take limit))

/-- `list_failed_storage_purges` and `list_expired_storage_purges`, which lock their rows. -/
def listStoragePurges (kind : PurgeKind) (limit : Nat) (excludeIds : List Uuid) :
    PassTx (List ExportArtifactStoragePurge) := do
  let ids : List Uuid ← stmt (PassStatement.purgeRetryIds kind excludeIds)
  let rows ← collectUpTo limit ids fun id => do
    let row ← passSql (.lockPurgeRetry id kind.status)
    pure (row.map fun row => (id, row))
  pure (storagePurgesFor rows)

/-- What came of the deletion of each object: those that succeeded, and the failures. -/
def deleteExportStoragePurges : List ExportArtifactStoragePurge →
    PassTx (List ExportArtifactStoragePurge × List AppError)
  | [] => pure ([], [])
  | purge :: rest => do
      let answer ← (stmt (PassStatement.deleteObject purge)).attempt
      let (deleted, failures) ← deleteExportStoragePurges rest
      match answer with
      | .ok _ => pure (purge :: deleted, failures)
      | .error e => pure (deleted, e :: failures)

def clearExportStoragePurgeMetadata (purge : ExportArtifactStoragePurge) : PassTx Bool := do
  let found ← passSql (.lockPurgeTarget purge.artifactId purge.expectedStatus purge.storageBackend
    purge.storageKey)
  match found with
  | none => pure false
  | some artifact =>
      if artifact.isPurgeable then do
        let cleared := artifact.withoutStorage
        let _ ← lifted (saveArtifact .clearStorage purge.artifactId artifact cleared)
        pure true
      else pure false

def clearExportStoragePurges : List ExportArtifactStoragePurge → PassTx Nat
  | [] => pure 0
  | purge :: rest => do
      let found ← clearExportStoragePurgeMetadata purge
      let cleared ← clearExportStoragePurges rest
      pure ((if found then 1 else 0) + cleared)

def expireReady (now : Time) (limit : Nat) : PassTx (List Uuid) := do
  let expired ← passSql (.expiredReadyArtifacts now)
  lifted (expireEach now (expired.take limit))
  pure ((expired.take limit).map (·.1))

/-! ## The pass -/

/-- `... if remaining_limit > 0 else ()`. -/
def ifRemaining {α : Type} (remaining : Nat) (p : PassTx (List α)) : PassTx (List α) :=
  if 0 < remaining then p else pure []

/-- The second transaction. -/
def failedStep (limit : Nat) (deleted : List ExportArtifactStoragePurge) :
    PassTx (Nat × List ExportArtifactStoragePurge) := do
  let cleared ← clearExportStoragePurges deleted
  let purges ← ifRemaining (limit - cleared) (listStoragePurges .failed (limit - cleared) [])
  pure (cleared, purges)

/-- The third one, where `processed` artifacts are counted already. -/
def expiredStep (now : Time) (limit processed : Nat)
    (deleted : List ExportArtifactStoragePurge) :
    PassTx (Nat × List ExportArtifactStoragePurge) := do
  let cleared ← clearExportStoragePurges deleted
  let processed := processed + cleared
  let newlyExpiredIds ← ifRemaining (limit - processed) (expireReady now (limit - processed))
  let processed := processed + newlyExpiredIds.length
  let purges ← ifRemaining (limit - processed)
    (listStoragePurges .expired (limit - processed) newlyExpiredIds)
  pure (processed, purges)

/-- The export steps of `run_privacy_retention_pass`: how many artifacts they have processed,
    or the first failure where nothing was done. `nonExport` is the count of the other steps. -/
def exportRetentionPass (now : Time) (limit nonExport : Nat) : PassTx Nat := do
  raiseIf (limit < 1) (.valueError "Privacy retention batch size must be positive")
  let cancelled ← passTransaction (listCancelledErasureStoragePurges limit)
  let (deleted, failures) ← deleteExportStoragePurges cancelled
  let (processed, failed) ← passTransaction (failedStep limit deleted)
  let (deleted, moreFailures) ← deleteExportStoragePurges failed
  let (processed, expired) ← passTransaction (expiredStep now limit processed deleted)
  let (deleted, lastFailures) ← deleteExportStoragePurges expired
  let cleared ← passTransaction (clearExportStoragePurges deleted)
  let processed := processed + cleared
  match failures ++ moreFailures ++ lastFailures with
  | [] => pure processed
  | failure :: _ => if processed + nonExport = 0 then raise failure else pure processed

/-! ## Database and storage -/

/-- The privacy database, and the deletions in which storage has succeeded, with who asked. -/
structure PassDb (τ : Type) where
  privacy : Db τ
  deleted : List (τ × ExportArtifactStoragePurge)

section Exec

variable {τ : Type} [DecidableEq τ]

/-- The rows of a kind that `t` sees, in the order of their query. -/
def purgeRetryRows (t : τ) (kind : PurgeKind) (db : Db τ) : List (Uuid × ExportArtifact) :=
  (db.artifacts.select t fun _ a => kind.meets a).insertionSort fun a b => kind.key a ≤ kind.key b

def passExec (t : τ) (s : PassStatement) (db : PassDb τ) :
    Option (Except AppError (PassAnswer s) × PassDb τ) :=
  match s with
  | .sql s => (exec t s db.privacy).map fun out => (out.1, { db with privacy := out.2 })
  | .cancelledErasurePurgeRetry => some (.ok (purgeRetryRows t .cancelled db.privacy), db)
  | .purgeRetryIds kind excludeIds =>
      let ids := (purgeRetryRows t kind db.privacy).map (·.1)
      some (.ok (ids.filter (!excludeIds.contains ·)), db)
  | .deleteObject purge => some (.ok (), { db with deleted := (t, purge) :: db.deleted })

end Exec

/-- Any statement but a rollback may fail, and so may any deletion. -/
def passMachine (τ : Type) [DecidableEq τ] :
    Machine τ PassStatement PassAnswer AppError (PassDb τ) where
  exec := passExec
  fallible s := s ≠ .sql .rollback
  crash t db := { db with privacy := db.privacy.rollback t }
  env db db' := ∃ clock, db' = { db with privacy := { db.privacy with clock } }

/-! ## The count -/

theorem storagePurgesFor_length (rows : List (Uuid × ExportArtifact)) :
    (storagePurgesFor rows).length ≤ rows.length := List.length_filterMap_le _ _

theorem returns_listStoragePurges (kind : PurgeKind) (limit : Nat) (excludeIds : List Uuid) :
    (listStoragePurges kind limit excludeIds).Returns fun purges => purges.length ≤ limit :=
  returns_after fun _ => returns_collectUpTo.bind fun rows bound =>
    returns_pure ((storagePurgesFor_length rows).trans bound)

theorem returns_ifRemaining {α : Type} {remaining : Nat} {p : PassTx (List α)}
    (h : p.Returns fun xs => xs.length ≤ remaining) :
    (ifRemaining remaining p).Returns fun xs => xs.length ≤ remaining := by
  unfold ifRemaining
  split
  · exact h
  · exact returns_pure (Nat.zero_le _)

theorem returns_deleteExportStoragePurges (purges : List ExportArtifactStoragePurge) :
    (deleteExportStoragePurges purges).Returns fun out => out.1.length ≤ purges.length := by
  induction purges with
  | nil => exact returns_pure le_rfl
  | cons purge rest ih =>
      refine returns_after fun answer => ih.bind fun out bound => ?_
      cases answer with
      | ok _ => exact returns_pure (Nat.succ_le_succ bound)
      | error e => exact returns_pure (Nat.le_succ_of_le bound)

theorem returns_clearExportStoragePurges (purges : List ExportArtifactStoragePurge) :
    (clearExportStoragePurges purges).Returns fun cleared => cleared ≤ purges.length := by
  induction purges with
  | nil => exact returns_pure le_rfl
  | cons purge rest ih =>
      refine returns_after fun found => ih.bind fun cleared bound => returns_pure ?_
      have one : (if found then 1 else 0) ≤ 1 := by split <;> simp
      rw [List.length_cons]
      omega

theorem returns_expireReady (now : Time) (limit : Nat) :
    (expireReady now limit).Returns fun ids => ids.length ≤ limit :=
  returns_after fun _ => returns_after fun _ => returns_pure (by simp)

/-- A step leaves at most what remains for the deletions after it. -/
theorem returns_failedStep {limit : Nat} {deleted : List ExportArtifactStoragePurge}
    (before : deleted.length ≤ limit) :
    (failedStep limit deleted).Returns fun out => out.1 + out.2.length ≤ limit := by
  refine (returns_clearExportStoragePurges deleted).bind fun cleared bound => ?_
  refine (returns_ifRemaining (returns_listStoragePurges _ _ _)).bind fun purges listed => ?_
  exact returns_pure (by simp only; omega)

theorem returns_expiredStep {now : Time} {limit processed : Nat}
    {deleted : List ExportArtifactStoragePurge} (before : processed + deleted.length ≤ limit) :
    (expiredStep now limit processed deleted).Returns fun out => out.1 + out.2.length ≤ limit := by
  refine (returns_clearExportStoragePurges deleted).bind fun cleared bound => ?_
  refine (returns_ifRemaining (returns_expireReady now _)).bind fun ids expired => ?_
  refine (returns_ifRemaining (returns_listStoragePurges _ _ _)).bind fun purges listed => ?_
  exact returns_pure (by simp only; omega)

theorem exportRetentionPass_returns (now : Time) (limit nonExport : Nat) :
    (exportRetentionPass now limit nonExport).Returns (· ≤ limit) := by
  have cancelled : (listCancelledErasureStoragePurges limit).Returns fun purges =>
      purges.length ≤ limit := returns_after fun rows => returns_pure
    ((storagePurgesFor_length _).trans (List.length_take_le _ _))
  refine returns_after fun _ => cancelled.transaction.bind fun purges listed => ?_
  refine (returns_deleteExportStoragePurges purges).bind fun ⟨deleted, failures⟩ some => ?_
  refine (returns_failedStep (some.trans listed)).transaction.bind
    fun ⟨processed, purges⟩ bound => ?_
  refine (returns_deleteExportStoragePurges purges).bind fun ⟨deleted, more⟩ some => ?_
  have remaining : processed + deleted.length ≤ limit :=
    (Nat.add_le_add_left some processed).trans bound
  refine (returns_expiredStep remaining).transaction.bind fun ⟨processed, purges⟩ bound => ?_
  refine (returns_deleteExportStoragePurges purges).bind fun ⟨deleted, last⟩ some => ?_
  refine (returns_clearExportStoragePurges deleted).transaction.bind fun cleared fewer => ?_
  have counted : processed + cleared ≤ limit :=
    (Nat.add_le_add_left (fewer.trans some) processed).trans bound
  dsimp only
  split
  · exact returns_pure counted
  · split
    · exact returns_raise
    · exact returns_pure counted

end SaasTemplate.Privacy
