import SaasTemplate.Exports.Learning
import SaasTemplate.Exports.StorageSteps
import SaasTemplate.Privacy.Lifecycle

/-! # The pipeline over whole runs

The clients run in any order, stop anywhere, fail anywhere and lose answers: in every state
that is reached each artifact that is ready has its object, and each object its artifact.
-/

set_option linter.unusedSectionVars false

namespace SaasTemplate.Exports

open SaasTemplate.Isolation
open SaasTemplate.Privacy
open SaasTemplate.Storage (Bytes)
open SaasTemplate.Storage.Local

variable {τ : Type} [DecidableEq τ] {sha256 : Bytes → String} {φ : τ → List Fact} {db db' : Db}
  {t : τ} {ψ : List Fact}

/-! ## One statement -/

/-- The answer that a client gets: that of the statement, or an error if it is lost. -/
def Answered {s : Statement} (db : Db) (answer r : Except AppError (Answer s)) : Prop :=
  db.lost = none ∧ r = answer ∨ ∃ e, r = .error e

theorem exec_cases {s : Statement} {r : Except AppError (Answer s)}
    (executed : exec sha256 t s db = some (r, db')) :
    ∃ answer, run sha256 s db = some (answer, db') ∧ Answered db answer r := by
  obtain ⟨⟨answer, left⟩, ran, is⟩ := Option.map_eq_some_iff.mp executed
  cases lost : db.lost <;> simp only [lost, Prod.mk.injEq] at is <;> obtain ⟨rfl, rfl⟩ := is
  · exact ⟨answer, ran, .inl ⟨lost, rfl⟩⟩
  · exact ⟨answer, ran, .inr ⟨_, rfl⟩⟩

/-- Nobody learns from a failure. -/
theorem knowing_error {s : Statement} {e : AppError} {χ : List Fact}
    (next : knowing χ s (.error e) = some ψ) : ∀ f ∈ ψ, f ∈ χ := by
  cases s with
  | storage backend operation =>
      cases operation <;> simp only [knowing, afterStorage] at next <;> grind
  | _ =>
      simp only [knowing] at next
      grind

/-- What a storage call leaves of its key, which may be half of what it does. -/
def leaves (sha256 : Bytes → String) (db : Db) (backend : StorageBackend)
    (operation : StorageCall) : Node :=
  if db.lost.isSome && db.halfway then
    operation.halfway sha256 (db.objects backend operation.key)
  else (operation.settle sha256 (db.objects backend operation.key)).2

theorem leaves_settled {backend : StorageBackend} {operation : StorageCall}
    (whole : operation.halfway sha256 (db.objects backend operation.key) =
      (operation.settle sha256 (db.objects backend operation.key)).2) :
    leaves sha256 db backend operation =
      (operation.settle sha256 (db.objects backend operation.key)).2 := by
  unfold leaves
  split <;> simp [whole]

/-- A publication leaves its key alone, or its object is in place; if it succeeds, it is. -/
theorem leaves_publish {backend : StorageBackend}
    {reservation : Storage.StoragePublicationReservation} {file : Storage.ArchiveFile} :
    (leaves sha256 db backend (.publish reservation file) = db.objects backend reservation.key ∧
      (db.lost = none → ∀ o, ((StorageCall.publish reservation file).settle sha256
        (db.objects backend reservation.key)).1 ≠ .ok o)) ∨
    Publishes sha256 reservation file (db.objects backend reservation.key)
      (leaves sha256 db backend (.publish reservation file)) := by
  unfold leaves
  split
  · rename_i lost
    rcases @halfway_publish sha256 (db.objects backend reservation.key) reservation file with
      same | publishes
    · exact .inl ⟨same, fun none => by simp [none] at lost⟩
    · exact .inr publishes
  · exact settle_publish.imp (fun refused => ⟨refused.1, fun _ => refused.2⟩) id

theorem run_storage {backend : StorageBackend} {operation : StorageCall}
    {answer : Except AppError Outcome}
    (ran : run sha256 (.storage backend operation) db = some (answer, db')) :
    (∀ o, answer = .ok o →
      (operation.settle sha256 (db.objects backend operation.key)).1 = .ok o) ∧
      db' = db.setObject backend operation.key (leaves sha256 db backend operation) := by
  unfold leaves
  cases settled : operation.settle sha256 (db.objects backend operation.key) with | _ result node
  simp only [run, settled, Option.some.injEq, Prod.mk.injEq] at ran
  obtain ⟨rfl, rfl⟩ := ran
  refine ⟨fun o is => ?_, rfl⟩
  cases result <;> cases is
  rfl

section Calls

variable {backend : StorageBackend} {r : Except AppError Outcome}

theorem Inv.callReserve (inv : Inv sha256 φ db) {key ownerToken : String}
    (answers : ∀ o, r = .ok o → db.lost = none ∧
      ((StorageCall.reserve key ownerToken).settle sha256 (db.objects backend key)).1 = .ok o)
    (next : afterStorage (φ t) backend (.reserve key ownerToken) r = some ψ) :
    Inv sha256 (Function.update φ t ψ)
      (db.setObject backend key (leaves sha256 db backend (.reserve key ownerToken))) := by
  simp only [afterStorage, Option.ite_none_right_eq_some] at next
  obtain ⟨mine, next⟩ := next
  rw [leaves_settled rfl]
  have same : ψ = (φ t).filter (!isValidated ownerToken ·) := by
    rcases r with e | reservation | state | _
    · exact (Option.some.inj next).symm
    · dsimp only at next
      rw [if_pos (settle_reserve_answer (answers _ rfl).2)] at next
      exact (Option.some.inj next).symm
    · exact (Option.some.inj next).symm
    · exact (Option.some.inj next).symm
  exact same ▸ inv.reserve mine

theorem Inv.callPublish (inv : Inv sha256 φ db)
    {reservation : Storage.StoragePublicationReservation} {file : Storage.ArchiveFile}
    (answers : ∀ o, r = .ok o → db.lost = none ∧ ((StorageCall.publish reservation file).settle
      sha256 (db.objects backend reservation.key)).1 = .ok o)
    (next : afterStorage (φ t) backend (.publish reservation file) r = some ψ) :
    Inv sha256 (Function.update φ t ψ) (db.setObject backend reservation.key
      (leaves sha256 db backend (.publish reservation file))) := by
  simp only [afterStorage, Option.ite_none_left_eq_some] at next
  obtain ⟨some_, next⟩ := next
  obtain ⟨⟨p, token⟩, member⟩ := List.exists_mem_of_ne_nil _ some_
  obtain ⟨known, is⟩ := mem_validatedAt.mp member
  rcases leaves_publish with ⟨same, refused⟩ | publishes
  · rw [same, setObject_self]
    cases r with
    | error e =>
        cases next
        exact inv.same
    | ok o => exact absurd (answers o rfl).2 (refused (answers o rfl).1 o)
  · have kept := inv.publish known is publishes
    cases r with
    | error e =>
        cases next
        exact kept.same
    | ok o =>
        cases next
        obtain ⟨bytes, there, -⟩ := publishes.published
        exact kept.learnPublished there

theorem Inv.callInspect (inv : Inv sha256 φ db) {key checksum : String} {size : Nat}
    (answers : ∀ o, r = .ok o → db.lost = none ∧
      ((StorageCall.inspect key checksum size).settle sha256 (db.objects backend key)).1 = .ok o)
    (next : afterStorage (φ t) backend (.inspect key checksum size) r = some ψ) :
    Inv sha256 (Function.update φ t ψ)
      (db.setObject backend key (leaves sha256 db backend (.inspect key checksum size))) := by
  rw [leaves_settled rfl]
  simp only [StorageCall.settle, StorageCall.key, setObject_self]
  rcases r with e | reservation | state | _
  · cases next
    exact inv.same
  · cases next
    exact inv.same
  · have is := (answers _ rfl).2
    simp only [StorageCall.settle, Except.ok.injEq, Outcome.state.injEq] at is
    cases state <;> cases next <;> first
      | exact inv.same
      | exact inv.learnMatching is
  · cases next
    exact inv.same

theorem Inv.callDeleteIfNotMatching (inv : Inv sha256 φ db) {key checksum : String} {size : Nat}
    (answers : ∀ o, r = .ok o → db.lost = none ∧ ((StorageCall.deleteIfNotMatching key checksum
      size).settle sha256 (db.objects backend key)).1 = .ok o)
    (next : afterStorage (φ t) backend (.deleteIfNotMatching key checksum size) r = some ψ) :
    Inv sha256 (Function.update φ t ψ) (db.setObject backend key
      (leaves sha256 db backend (.deleteIfNotMatching key checksum size))) := by
  rw [leaves_settled rfl]
  simp only [afterStorage, Option.ite_none_left_eq_some] at next
  obtain ⟨some_, next⟩ := next
  obtain ⟨⟨p, token⟩, member⟩ := List.exists_mem_of_ne_nil _ some_
  obtain ⟨known, is⟩ := preparedAt_iff.mp member
  by_cases matches_ : inspected sha256 checksum size (db.objects backend key) = .matching
  · simp only [StorageCall.settle, StorageCall.key, matches_, if_true, setObject_self] at answers ⊢
    cases r with
    | error e =>
        cases next
        exact inv.same
    | ok o =>
        cases (answers o rfl).2
        cases next
        exact inv.learnMatching matches_
  · simp only [StorageCall.settle, StorageCall.key, matches_, if_false] at answers ⊢
    have kept := inv.deleteIfNotMatching known is matches_
    cases r with
    | error e =>
        cases next
        exact kept.same
    | ok o =>
        cases (answers o rfl).2
        cases next
        exact kept.learnCleaned

theorem Inv.callDelete (inv : Inv sha256 φ db) {key : String}
    (next : afterStorage (φ t) backend (.delete key) r = some ψ) :
    Inv sha256 (Function.update φ t ψ)
      (db.setObject backend key (leaves sha256 db backend (.delete key))) := by
  rw [leaves_settled rfl]
  simp only [afterStorage, Option.ite_none_right_eq_some] at next
  obtain ⟨known, next⟩ := next
  have kept := inv.delete known
  cases r with
  | error e =>
      cases next
      exact kept.same
  | ok o =>
      cases next
      exact kept.learnEmptied known

theorem Inv.call (inv : Inv sha256 φ db) {operation : StorageCall}
    (answers : ∀ o, r = .ok o → db.lost = none ∧
      (operation.settle sha256 (db.objects backend operation.key)).1 = .ok o)
    (next : afterStorage (φ t) backend operation r = some ψ) :
    Inv sha256 (Function.update φ t ψ)
      (db.setObject backend operation.key (leaves sha256 db backend operation)) := by
  cases operation with
  | reserve key ownerToken => exact inv.callReserve answers next
  | publish reservation file => exact inv.callPublish answers next
  | cancel reservation =>
      cases next
      rw [leaves_settled rfl]
      exact (inv.cancel reservation).same
  | inspect key checksum size => exact inv.callInspect answers next
  | deleteIfNotMatching key checksum size => exact inv.callDeleteIfNotMatching answers next
  | delete key => exact inv.callDelete next

end Calls

/-- What a statement leaves, and what its client knows after it, whether or not its answer has
    been lost. -/
theorem Inv.run {s : Statement} {answer r : Except AppError (Answer s)} (inv : Inv sha256 φ db)
    (ran : run sha256 s db = some (answer, db')) (answers : Answered db answer r)
    (next : knowing (φ t) s r = some ψ) : Inv sha256 (Function.update φ t ψ) db' := by
  cases s with
  | now | requestById | countQueuedArtifacts | writeArchive | readExpiredReady =>
      cases ran
      cases next
      exact inv.same
  | insertArtifact id artifact =>
      simp only [knowing, Option.ite_none_right_eq_some, Option.some.injEq] at next
      obtain ⟨new, rfl⟩ := next
      simp only [Exports.run, Option.some.injEq] at ran
      split at ran <;> cases ran
      · rename_i inserted
        exact (inv.insert inserted new).same
      · exact inv.same
  | claimQueuedArtifactLeases batchSize =>
      obtain ⟨⟨leases, left⟩, claimed, is⟩ := Option.map_eq_some_iff.mp ran
      cases is
      have learnt := inv.claimLeases (t := t) claimed
      rcases answers with ⟨-, rfl⟩ | ⟨e, rfl⟩ <;> cases next
      · exact learnt
      · have kept := learnt.forget (t := t) (ψ := φ t) fun f known => by simp [known]
        simpa using kept
  | processingArtifact id token =>
      cases ran
      rcases answers with ⟨-, rfl⟩ | ⟨e, rfl⟩
      · cases is : Table.find id (·.isProcessingWith token) db.artifacts with
        | none =>
            rw [is] at next
            cases next
            exact inv.same
        | some a =>
            rw [is] at next
            cases next
            obtain ⟨has, processing⟩ := Table.mem_of_find is
            exact inv.learnFound has processing
      · cases next
        exact inv.same
  | flushLease id loaded leaseExpiresAt =>
      cases ran
      cases next
      exact (inv.flushLease id loaded leaseExpiresAt).same
  | ensureUploadIntent id token metadata =>
      simp only [knowing, Option.ite_none_right_eq_some] at next
      obtain ⟨known, next⟩ := next
      obtain ⟨⟨out, left⟩, ensured, is⟩ := Option.map_eq_some_iff.mp ran
      cases is
      have kept := inv.ensureIntent known ensured
      rcases answers with ⟨-, rfl⟩ | ⟨e, rfl⟩ <;> cases next
      · have fact := inv.facts t _ known
        have handed : token ∈ left.used := ensured_used ensured (fact.handed token rfl)
        have learnt := kept.learnIntended (t := t) (inv.own_or_free (owns_of_mem known rfl)) handed
          (ensured_read fact.isTrue ensured)
        simpa using learnt
      · exact kept
  | validateUpload prepared token =>
      cases ran
      simp only [knowing, Option.ite_none_right_eq_some] at next
      obtain ⟨known, next⟩ := next
      rcases answers with ⟨-, rfl⟩ | ⟨e, rfl⟩
      · cases valid : validatePreparedExportUpload prepared token db with
        | error e =>
            rw [valid] at next
            cases next
            exact inv.same
        | ok u =>
            rw [valid] at next
            cases next
            exact inv.validate known valid
      · cases next
        exact inv.same
  | resetUploadIntent prepared token =>
      cases ran
      simp only [knowing, Option.ite_none_right_eq_some] at next
      obtain ⟨known, next⟩ := next
      obtain ⟨kept, none⟩ := inv.resetIntent known
      rcases answers with ⟨-, rfl⟩ | ⟨e, rfl⟩
      · cases reset : (resetProcessingUploadIntent prepared token db).1 <;> rw [reset] at next <;>
          cases next
        · exact kept.same
        · exact kept.learnReset known (none reset)
      · cases next
        exact kept.same
  | markReady prepared token =>
      simp only [knowing, Option.ite_none_right_eq_some, Option.some.injEq] at next
      obtain ⟨known, rfl⟩ := next
      have kept := inv.markReady known
      rw [Option.some.inj ran] at kept
      exact kept.same
  | markFailed id token text =>
      cases ran
      obtain ⟨kept, retired⟩ := inv.markFailed id token text
      rcases answers with ⟨-, rfl⟩ | ⟨e, rfl⟩
      · cases failed : (markExportArtifactFailed id token text db).1 with
        | none =>
            rw [failed] at next
            cases next
            exact kept.same
        | some cleanup =>
            rw [failed] at next
            cases next
            refine kept.learnRetired fun f known => (List.mem_cons.mp known).symm.imp_right ?_
            rintro rfl
            exact ⟨_, _, rfl, retired cleanup failed⟩
      · cases next
        exact kept.same
  | clearFailed cleanup =>
      cases ran
      simp only [knowing, Option.ite_none_right_eq_some, Option.some.injEq] at next
      obtain ⟨known, rfl⟩ := next
      exact (inv.clearFailed known).same
  | listCancelled limit =>
      cases ran
      rcases answers with ⟨-, rfl⟩ | ⟨e, rfl⟩ <;> cases next
      · exact inv.learnPurges listed_has
      · exact inv.same
  | clearAndListFailed deleted limit =>
      cases ran
      simp only [knowing, Option.ite_none_right_eq_some] at next
      obtain ⟨emptied, next⟩ := next
      have kept := inv.clearPurges emptied
      rcases answers with ⟨-, rfl⟩ | ⟨e, rfl⟩ <;> cases next
      · exact kept.learnListed
      · exact kept.same
  | clearExpireAndList deleted expired limit processed =>
      cases ran
      simp only [knowing, Option.ite_none_right_eq_some] at next
      obtain ⟨emptied, next⟩ := next
      have kept := inv.expireAndList emptied expired limit processed
      rcases answers with ⟨-, rfl⟩ | ⟨e, rfl⟩ <;> cases next
      · exact kept.learnListed
      · exact kept.same
  | clearPurges deleted =>
      cases ran
      simp only [knowing, Option.ite_none_right_eq_some, Option.some.injEq] at next
      obtain ⟨emptied, rfl⟩ := next
      exact (inv.clearPurges emptied).same
  | executeErasure subject =>
      obtain ⟨kept, retired⟩ := inv.executeErasure subject
      cases out : Exports.executeErasure subject db with | _ outcome left
      simp only [Exports.run, out, Option.some.injEq, Prod.mk.injEq] at ran
      obtain ⟨rfl, rfl⟩ := ran
      rw [out] at kept retired
      rcases answers with ⟨-, rfl⟩ | ⟨e, rfl⟩
      · cases r with
        | error e =>
            cases next
            exact kept.same
        | ok deletions =>
            cases next
            refine kept.learnRetired fun f known => ?_
            refine (List.mem_append.mp known).symm.imp_right fun new => ?_
            obtain ⟨deletion, member, rfl⟩ := List.mem_map.mp new
            exact ⟨_, _, rfl, retired deletions rfl deletion member⟩
      · cases next
        exact kept.same
  | storage backend operation =>
      obtain ⟨settled, rfl⟩ := run_storage ran
      refine inv.call (fun o is => ?_) next
      rcases answers with ⟨lost, rfl⟩ | ⟨e, rfl⟩
      · exact ⟨lost, settled o is⟩
      · cases is

/-! ## Whole runs -/

/-- The clients and an observer, who does nothing and knows `γ`. -/
def observed {Φ : Type} (γ : Φ) (φ : τ → Φ) : Option τ → Φ
  | none => γ
  | some t => φ t

theorem observed_update {Φ : Type} {γ ψ : Φ} {φ : τ → Φ} : observed γ (Function.update φ t ψ) =
    Function.update (observed γ φ) (some t) ψ := by
  funext u
  cases u with
  | none => rfl
  | some u => simp [observed, Function.update_apply]

theorem joint_pipeline (γ : List Fact) : Joint (machine sha256 τ) knowledge fun φ db =>
    Inv sha256 (observed γ φ) db where
  exec {φ t s r db db' ψ} inv executed next := by
    obtain ⟨answer, ran, answers⟩ := exec_cases (t := t) executed
    rw [observed_update]
    unfold knowledge at next
    split at next
    · rename_i seen
      exact (inv.facts (some t) _ seen).isTrue.elim
    · exact inv.run ran answers next
  fault {φ t s e db ψ} inv _ next := by
    rw [observed_update]
    unfold knowledge at next
    split at next
    · rename_i seen
      exact (inv.facts (some t) _ seen).isTrue.elim
    · exact inv.forget (knowing_error next)
  crash inv := inv
  env inv moved := inv.moves moved

/-- Clients at the beginning of their operations, in a deployment that stores locally. -/
structure PipelineStart (settings : ExportSettings) (sha256 : Bytes → String)
    (c : Config τ Statement Answer AppError Db Nat) : Prop where
  stores : settings.storageBackend = .local
  artifacts : ∀ id a, c.db.Has id a → a.storageBackend = .local
  consistent : Consistent sha256 c.db
  programs : ∀ t p, c.run t = some p → ∃ op : PipelineOp, p = op.program settings sha256

section Runs

variable {settings : ExportSettings} {allowed : τ → Statement → Db → Prop}
  {c d : Config τ Statement Answer AppError Db Nat}

theorem PipelineStart.jointly (start : PipelineStart settings sha256 c) :
    Jointly knowledge (fun φ db => Inv sha256 (observed [] φ) db) c := by
  refine ⟨fun _ => [], fun t p running => ?_, start.consistent, fun u f known => ?_,
    fun u v token mine _ => ?_⟩
  · obtain ⟨op, rfl⟩ := start.programs t p running
    exact Prog.Follows.mono (learns_program op) fun _ _ _ => trivial
  · cases u <;> cases known
  · cases u <;> cases mine

theorem PipelineStart.consistent_of_reaches (start : PipelineStart settings sha256 c)
    (run : (machine sha256 τ).Reaches allowed c d) : Consistent sha256 d.db := by
  obtain ⟨φ, -, inv⟩ := (joint_pipeline []).reaches start.jointly run
  exact inv.toConsistent

theorem Consistent.ready_describes (consistent : Consistent sha256 db) {id : Uuid}
    {a : ExportArtifact} (has : db.Has id a) (ready : a.status = .ready) :
    ∃ key bytes, a.storageKey = some key ∧ db.bytes a.storageBackend key = some bytes ∧
      Describes sha256 a bytes := by
  obtain ⟨key, bytes, keyed, there⟩ := consistent.ready id a has ready
  refine ⟨key, bytes, keyed, there, ?_⟩
  obtain ⟨id', a', has', -, keyed', described⟩ := consistent.published _ _ _ there
  obtain rfl := consistent.unique (consistent.keys id a key has keyed) has' keyed'
  obtain rfl := has_eq has has'
  refine described.resolve_left fun final => ?_
  rw [ready] at final
  cases final

/-- In every run of workers, heartbeats, retention passes, erasures and requests, however their
    statements interleave, fail, lose answers or stop: an artifact that is ready has an object
    with its checksum and size; an object lies at the key of an artifact that has its checksum
    and size, or is failed, expired or cancelled; and no two artifacts share a key. -/
theorem export_pipeline_integrity (start : PipelineStart settings sha256 c)
    (run : (machine sha256 τ).Reaches allowed c d) :
    (∀ id a, d.db.Has id a → a.status = .ready → ∃ key bytes, a.storageKey = some key ∧
      d.db.bytes a.storageBackend key = some bytes ∧ Describes sha256 a bytes) ∧
    (∀ backend key bytes, d.db.bytes backend key = some bytes → ∃ id a, d.db.Has id a ∧
      a.storageBackend = backend ∧ a.storageKey = some key ∧
        (a.status.isFinal = true ∨ Describes sha256 a bytes)) ∧
    ∀ id a id' a' key, d.db.Has id a → d.db.Has id' a' → a.storageKey = some key →
      a'.storageKey = some key → id = id' := by
  have consistent := start.consistent_of_reaches run
  refine ⟨fun id a has ready => consistent.ready_describes has ready, consistent.published,
    fun id a id' a' key has has' keyed keyed' => ?_⟩
  exact consistent.unique (consistent.keys id' a' key has' keyed') has keyed

/-- Artifact 10 of request 1 is queued, and two uuids will be drawn. -/
def queuedDb : Db where
  artifacts := ⟨[(10, { exampleArtifact .queued with
    storageKey := none, filename := none, contentType := none, sizeBytes := none
    checksumSha256 := none })], by decide⟩
  requests id := if id = 1 then some exampleRequest else none
  objects _ _ := .absent
  clock := 9
  used := []
  drawn := ["00000000-0000-4000-8000-000000000001", "00000000-0000-4000-8000-000000000002"]
  unseen := []
  archive := exampleFile.body
  lost := none
  halfway := false

def generatedKey : String := "exports/10/00000000-0000-4000-8000-000000000002.zip"

/-- A worker, and the erasure of the subject. -/
def queuedStart : Config Bool Statement Answer AppError Db Nat where
  db := queuedDb
  run erases := some <| PipelineOp.program exampleSettings exampleSha256 <|
    if erases then .erasure 100 else .worker (fun _ => "") 1 1 false true false

theorem queuedStart_start : PipelineStart exampleSettings exampleSha256 queuedStart where
  stores := rfl
  artifacts id a has := by
    obtain ⟨rfl, rfl⟩ := Prod.mk.inj (List.mem_singleton.mp has)
    rfl
  consistent := by
    refine ⟨fun id a key has => ?_, nofun, fun id a has => ?_, fun id a key has => ?_,
      fun _ _ _ => rfl⟩ <;>
      obtain ⟨rfl, rfl⟩ := Prod.mk.inj (List.mem_singleton.mp has) <;> nofun
  programs erases p is := ⟨_, (Option.some.inj is).symm⟩

/-- What shows of the artifacts and of the key. -/
def generatedView (c : Config Bool Statement Answer AppError Db Nat) :
    List (Uuid × ExportArtifactStatus × StorageBackend) × List String × Node :=
  (c.db.artifacts.rows.map fun row => (row.1, row.2.status, row.2.storageBackend), c.db.used,
    c.db.objects .local generatedKey)

theorem statement_checked (_ : Bool) (_ : Statement) (_ : Db) (_ : true = true) : True := trivial

/-- The worker generates the archive. -/
theorem export_pipeline_integrity_example :
    ∃ d, (machine exampleSha256 Bool).Reaches (fun _ _ _ => True) queuedStart d ∧
      (generatedView d).1 = [(10, .ready, .local)] ∧
      ∀ id a, d.db.Has id a → a.status = .ready → ∃ key bytes, a.storageKey = some key ∧
        d.db.bytes a.storageBackend key = some bytes ∧ Describes exampleSha256 a bytes := by
  have played : ((machine exampleSha256 Bool).play (fun _ _ _ => true) (List.replicate 9 false)
      queuedStart).map (generatedView · |>.1) = some [(10, .ready, .local)] := by decide
  obtain ⟨d, run, seen⟩ := Machine.run_of_play statement_checked played
  exact ⟨d, run, seen, (export_pipeline_integrity queuedStart_start run).1⟩

/-- Where an object has been deleted whose artifact is over, or has given up its key, no client
    publishes one again, however late. -/
theorem deleted_object_stays_deleted (start : PipelineStart settings sha256 c)
    (before : (machine sha256 τ).Reaches allowed c d) {backend : StorageBackend} {key : String}
    (retired : IsRetired d.db backend key) (deleted : d.db.objects backend key = .absent)
    {e : Config τ Statement Answer AppError Db Nat}
    (after : (machine sha256 τ).Reaches allowed d e) : e.db.bytes backend key = none := by
  obtain ⟨φ, abides, inv⟩ := (joint_pipeline []).reaches start.jointly before
  have empty : Empty (observed [] φ) d.db backend key :=
    ⟨by rw [Db.bytes, deleted]; rfl, by
      rw [Db.reservation, deleted]
      rintro _ _ _ _ _ _ ⟨⟩⟩
  have learnt := inv.learn (t := none) (ψ := [.emptied backend key]) fun f known => by
    rw [List.mem_singleton] at known
    subst known
    refine .inr ⟨⟨fun token is => ?_, retired, empty⟩, fun p token is => ?_, fun token is => ?_⟩ <;>
      cases is
  have told : Function.update (observed [] φ) none [.emptied backend key] =
      observed [.emptied backend key] φ := by
    funext u
    cases u <;> simp [observed]
  rw [told] at learnt
  obtain ⟨φ', -, inv'⟩ := (joint_pipeline _).reaches ⟨φ, abides, learnt⟩ after
  exact (inv'.facts none _ List.mem_cons_self).isTrue.2.bytes

/-- After the erasure of its subject nothing appears at the key again. -/
theorem deleted_object_stays_deleted_example :
    ∃ d, (machine exampleSha256 Bool).Reaches (fun _ _ _ => True) queuedStart d ∧
      (generatedView d).1 = [(10, .cancelled, .local)] ∧
      ∀ e, (machine exampleSha256 Bool).Reaches (fun _ _ _ => True) d e →
        e.db.bytes .local generatedKey = none := by
  have played : ((machine exampleSha256 Bool).play (fun _ _ _ => true)
      (List.replicate 9 false ++ List.replicate 2 true) queuedStart).map generatedView =
        some ([(10, .cancelled, .local)], ["00000000-0000-4000-8000-000000000002",
          "00000000-0000-4000-8000-000000000001"], .absent) := by decide
  obtain ⟨d, run, seen⟩ := Machine.run_of_play statement_checked played
  simp only [generatedView, Prod.mk.injEq] at seen
  obtain ⟨rows, used, deleted⟩ := seen
  have only : ∀ id a, d.db.Has id a → a.status = .cancelled ∧ a.storageBackend = .local := by
    intro id a has
    have shown := List.mem_map_of_mem (f := fun row : Uuid × ExportArtifact =>
      (row.1, row.2.status, row.2.storageBackend)) has
    rw [rows, List.mem_singleton] at shown
    exact (Prod.mk.inj (Prod.mk.inj shown).2)
  refine ⟨d, run, rows, fun e after => deleted_object_stays_deleted queuedStart_start run
    ⟨⟨10, _, used ▸ List.mem_cons_self, by decide, by decide⟩, fun id a has _ => (only id a has).2,
      fun id a has _ => by rw [(only id a has).1]; rfl⟩ deleted after⟩

end Runs

end SaasTemplate.Exports
