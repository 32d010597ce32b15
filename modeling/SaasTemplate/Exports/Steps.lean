import SaasTemplate.Exports.Integrity
import SaasTemplate.Isolation.JointPhases
import SaasTemplate.Privacy.RetentionPreview

/-! # Every statement keeps the invariant

One lemma for each transaction and each storage call: what it makes of the artifacts or of its
key, and that the facts its client learns are true.
-/

set_option linter.unusedSectionVars false

namespace SaasTemplate.Exports

open SaasTemplate.Privacy
open SaasTemplate.Outbox (written)
open SaasTemplate.Storage (Bytes ArchiveFile StoragePublicationReservation)
open SaasTemplate.Storage.Local (Node StorageCall Outcome LocalError Publishes)
open Retention (Table listPurgeRetry clearPurge clearPurges isPurgeTarget)

variable {τ : Type} [DecidableEq τ] {sha256 : Bytes → String} {φ φ' : τ → List Fact} {db db' : Db}
  {id : Uuid} {a b : ExportArtifact} {t : τ} {ψ : List Fact}

/-! ## Rewriting a table -/

theorem rewrites_update {p : Uuid → ExportArtifact → Bool}
    {f : Uuid → ExportArtifact → ExportArtifact} (objects : db'.objects = db.objects)
    (used : db.used ⊆ db'.used) (artifacts : db'.artifacts = db.artifacts.update p f)
    (each : ∀ id a, db.Has id a → p id a = true → Rewritten φ db db' id a (f id a)) :
    Rewrites φ db db' := by
  have rewritten : ∀ id a, db.Has id a →
      Rewritten φ db db' id a (if p id a then f id a else a) := by
    intro id a has
    split
    · rename_i meets
      exact each id a has meets
    · exact Rewritten.refl φ db db' id a
  refine ⟨objects, used, fun id a has => ⟨_, ?_, rewritten id a has⟩, fun id b has => .inr ?_⟩
  · rw [Db.Has, artifacts]
    exact Table.mem_update.mpr ⟨a, has, rfl⟩
  · rw [Db.Has, artifacts] at has
    obtain ⟨a, was, rfl⟩ := Table.mem_update.mp has
    exact ⟨a, was, rewritten id a was⟩

/-- An artifact whose storage stays as it is. -/
theorem rewritten_of_storage (backend : b.storageBackend = a.storageBackend)
    (storage : b.storage = a.storage)
    (token : ∀ token ∈ db.used, b.isProcessingWith token = true → a.isProcessingWith token = true)
    (final : a.status.isFinal = true → b.status.isFinal = true)
    (ready : b.status = .ready → a.status = .ready) : Rewritten φ db db' id a b :=
  ⟨backend, .kept (Prod.mk.inj storage).1, token, final, fun is => .inl (ready is),
    fun _ _ _ => .inr storage.symm⟩

/-- An artifact that loses its key, where nothing is left. -/
theorem rewritten_withoutStorage
    (empty : ∀ key, a.storageKey = some key → Empty φ db a.storageBackend key) :
    Rewritten φ db db' id a a.withoutStorage :=
  ⟨rfl, .cleared rfl empty, fun _ _ same => same, fun final => final, .inl, fun _ _ => nofun⟩

theorem Inv.updateDrawing (inv : Inv sha256 φ db) {used drawn : List String} (more : db.used ⊆ used)
    (p : Uuid → ExportArtifact → Bool) (f : Uuid → ExportArtifact → ExportArtifact)
    (each : ∀ id a, db.Has id a → p id a = true →
      Rewritten φ db { db with artifacts := db.artifacts.update p f, used, drawn } id a (f id a)) :
    Inv sha256 φ { db with artifacts := db.artifacts.update p f, used, drawn } :=
  inv.rewrite (rewrites_update rfl more rfl each)

theorem Inv.update (inv : Inv sha256 φ db) (p : Uuid → ExportArtifact → Bool)
    (f : Uuid → ExportArtifact → ExportArtifact)
    (each : ∀ id a, db.Has id a → p id a = true →
      Rewritten φ db { db with artifacts := db.artifacts.update p f } id a (f id a)) :
    Inv sha256 φ { db with artifacts := db.artifacts.update p f } :=
  inv.updateDrawing (List.Subset.refl _) p f each

theorem Inv.same (inv : Inv sha256 φ db) : Inv sha256 (Function.update φ t (φ t)) db := by
  rwa [Function.update_eq_self]

/-- What lasts longest is that an artifact is over: everyone may know it. -/
theorem Inv.learnRetired (inv : Inv sha256 φ db)
    (new : ∀ f ∈ ψ, f ∈ φ t ∨ ∃ backend key, f = .retired backend key ∧ IsRetired db backend key) :
    Inv sha256 (Function.update φ t ψ) db := by
  refine inv.learn fun f known => (new f known).imp_right ?_
  rintro ⟨backend, key, rfl, retired⟩
  exact ⟨⟨nofun, retired⟩, nofun, nofun⟩

theorem Inv.isRetired (inv : Inv sha256 φ db) (id : Uuid) (a : ExportArtifact) {key : String}
    (has : db.Has id a) (keyed : a.storageKey = some key) (final : a.status.isFinal = true) :
    IsRetired db a.storageBackend key := by
  have issued := inv.keys id a key has keyed
  have same : ∀ id' b, db.Has id' b → b.storageKey = some key → b = a := fun id' b hasb keyedb => by
    obtain rfl := inv.unique issued hasb keyedb
    exact has_eq hasb has
  exact ⟨⟨id, issued⟩, fun id' b hasb keyedb => by rw [same id' b hasb keyedb],
    fun id' b hasb keyedb => by rw [same id' b hasb keyedb, final]⟩

/-! ## Creating and claiming -/

theorem Inv.insert (inv : Inv sha256 φ db) {artifacts : Table ExportArtifact}
    (inserted : Table.insert id a db.artifacts = some artifacts) (new : IsNew a) :
    Inv sha256 φ { db with artifacts } := by
  unfold Table.insert at inserted
  split at inserted <;> cases inserted
  refine inv.rewrite ⟨rfl, List.Subset.refl _, fun id' b has => ?_, fun id' b has => ?_⟩
  · exact ⟨b, List.mem_cons_of_mem _ has, Rewritten.refl ..⟩
  · rcases List.mem_cons.mp has with is | was
    · cases is
      exact .inl new
    · exact .inr ⟨b, was, Rewritten.refl ..⟩

/-- The row of an id that a query on the table has selected. -/
theorem selected_row {before : Uuid × ExportArtifact → Uuid × ExportArtifact → Bool}
    {p : ExportArtifact → Bool} {limit : Nat} (has : db.Has id a)
    (member : id ∈ (db.seen.select before p limit).map (·.1)) : p a = true := by
  obtain ⟨⟨_, b⟩, selected, rfl⟩ := List.mem_map.mp member
  obtain ⟨here, meets⟩ := Retention.Table.mem_select selected
  have hasb : db.Has _ b := List.mem_of_mem_filter here
  exact has_eq has hasb ▸ meets

theorem Inv.recoverStale (inv : Inv sha256 φ db) (limit : Nat) :
    Inv sha256 φ (recoverStaleProcessing limit db) := by
  refine inv.update _ _ fun id a has selected => ?_
  have stale := selected_row has (List.contains_iff_mem.mp selected)
  simp only [ExportArtifact.isStale, Bool.and_eq_true, beq_iff_eq] at stale
  refine rewritten_of_storage rfl rfl (fun _ _ processing => ?_) (fun final => ?_) fun ready => ?_
  · cases processing
  · rw [stale.1] at final
    cases final
  · cases ready

theorem draw_some {n : Nat} {uuids : List String} (drawn : db.draw n = some (uuids, db')) :
    uuids.length = n ∧ (∀ uuid ∈ uuids, uuid.length = 36 ∧ uuid ∉ db.used) ∧
      db' = { db with used := uuids ++ db.used, drawn := db.drawn.drop n } := by
  unfold Db.draw at drawn
  simp only [Option.ite_none_right_eq_some, Option.some.injEq, Prod.mk.injEq] at drawn
  obtain ⟨⟨length, -, fresh⟩, rfl, rfl⟩ := drawn
  exact ⟨length, fresh, rfl⟩

theorem mem_of_lookup {tokens : List (Uuid × String)} {uuid : String}
    (found : tokens.lookup id = some uuid) : (id, uuid) ∈ tokens := by
  obtain ⟨before, after, rfl, -⟩ := List.lookup_eq_some_iff.mp found
  exact List.mem_append_right _ List.mem_cons_self

/-- Claimed artifacts were queued, and their tokens are new. -/
theorem Inv.claimBatch (inv : Inv sha256 φ db) {limit : Nat} {leases : List ProcessingExportLease}
    (claimed : claimQueuedBatch limit db = some (leases, db')) :
    Inv sha256 φ db' ∧ ∀ lease ∈ leases, lease.processingToken ∈ db'.used ∧
      lease.processingToken ∉ db.used := by
  obtain ⟨⟨uuids, mid⟩, drawn, is⟩ := Option.map_eq_some_iff.mp claimed
  obtain ⟨length, fresh, rfl⟩ := draw_some drawn
  simp only [Prod.mk.injEq] at is
  obtain ⟨rfl, rfl⟩ := is
  set rows := db.seen.select (fun a b => decide (a.2.queuedAt ≤ b.2.queuedAt))
    (·.status == .queued) limit
  refine ⟨inv.updateDrawing (List.subset_append_right _ _) _ _ fun id a has selected => ?_, ?_⟩
  · obtain ⟨uuid, found⟩ := Option.isSome_iff_exists.mp selected
    have pair := List.of_mem_zip (mem_of_lookup found)
    have queued := selected_row has pair.1
    rw [beq_iff_eq] at queued
    refine rewritten_of_storage rfl rfl (fun token used processing => ?_) (fun final => ?_) nofun
    · simp only [found, Option.getD_some, ExportArtifact.claimed, ExportArtifact.isProcessingWith,
        Bool.and_eq_true, beq_iff_eq, Option.some.injEq] at processing
      exact absurd (processing.2 ▸ used) (fresh uuid pair.2).2
    · rw [queued] at final
      cases final
  · intro lease member
    obtain ⟨⟨id, uuid⟩, pair, rfl⟩ := List.mem_map.mp member
    have mem := (List.of_mem_zip pair).2
    exact ⟨List.mem_append_left _ mem, (fresh uuid mem).2⟩

theorem Inv.claimLeases (inv : Inv sha256 φ db) {batchSize : Nat}
    {leases : List ProcessingExportLease}
    (claimed : claimQueuedArtifactLeases batchSize db = some (leases, db')) :
    Inv sha256 (Function.update φ t (leases.map .ofLease ++ φ t)) db' := by
  obtain ⟨inv', handed⟩ := (inv.recoverStale batchSize).claimBatch claimed
  refine inv'.learn fun f known => ?_
  rcases List.mem_append.mp known with new | old
  · obtain ⟨lease, member, rfl⟩ := List.mem_map.mp new
    obtain ⟨used, unused⟩ := handed lease member
    refine .inr ⟨⟨by rintro _ ⟨⟩; exact used, trivial⟩, nofun, ?_⟩
    rintro _ ⟨⟩
    -- nobody has had a fact about a token that was not handed out
    refine .inr fun u => Bool.eq_false_iff.mpr fun mine => ?_
    obtain ⟨f, known, is⟩ := List.any_eq_true.mp mine
    exact unused ((inv.facts u f known).handed _ (by simpa using is))
  · exact .inl old

theorem Inv.flushLease (inv : Inv sha256 φ db) (id : Uuid) (loaded : ExportArtifact)
    (leaseExpiresAt : Time) : Inv sha256 φ (flushLease id loaded leaseExpiresAt db) := by
  refine inv.update _ _ fun id a _ _ => rewritten_of_storage ?_ ?_ (fun token _ => ?_) ?_ ?_ <;>
    simp [ExportArtifact.flush, ExportArtifact.renewed, ExportArtifact.storage,
      ExportArtifact.isProcessingWith]

/-! ## Upload intents -/

theorem processing_of_leased {token : String} {now : Time}
    (leased : a.isLeasedTo token now = true) : a.isProcessingWith token = true :=
  (Bool.and_eq_true_iff.mp leased).1

theorem token_eq {token token' : String} (first : a.isProcessingWith token = true)
    (second : a.isProcessingWith token' = true) : token = token' := by
  simp only [ExportArtifact.isProcessingWith, Bool.and_eq_true, beq_iff_eq] at first second
  exact Option.some.inj (first.2.symm.trans second.2)

section Intents

variable {token : String} {metadata : ExportArtifact.Metadata}
  {answer : String × Option ExportArtifact}

/-- The client forgets that there is no key, and the new key is no one else's. -/
theorem Inv.ensureIntent (inv : Inv sha256 φ db) (known : .intentless id token ∈ φ t)
    (ensured : ensureProcessingUploadIntent id token metadata db = some (answer, db')) :
    Inv sha256 (Function.update φ t ((φ t).filter (· ≠ .intentless id token))) db' := by
  obtain ⟨⟨uuids, mid⟩, drawn, is⟩ := Option.map_eq_some_iff.mp ensured
  obtain ⟨length, fresh, rfl⟩ := draw_some drawn
  obtain ⟨uuid, rfl⟩ := List.length_eq_one_iff.mp length
  simp only [Prod.mk.injEq, List.headD_cons] at is
  obtain ⟨-, rfl⟩ := is
  have forgot := inv.forget (t := t) (ψ := (φ t).filter (· ≠ .intentless id token))
    fun f known => (List.mem_filter.mp known).1
  refine forgot.updateDrawing (List.subset_append_right _ _) _ _ fun id' a has meets => ?_
  simp only [Bool.and_eq_true, beq_iff_eq, Option.isNone_iff_eq_none] at meets
  obtain ⟨⟨rfl, leased⟩, none⟩ := meets
  refine ⟨rfl, .assigned uuid none rfl (fresh uuid (by simp)).2 (by simp) (fresh uuid (by simp)).1
    ⟨metadata, by simp [ExportArtifact.hasMetadata, ExportArtifact.withMetadata]⟩
    fun u other known' => Bool.eq_false_iff.mpr fun processing => ?_, fun _ _ same => same,
    fun final => final, .inl, fun key keyed => ?_⟩
  · obtain rfl := token_eq (processing_of_leased leased) processing
    have was : .intentless id' token ∈ φ u := by
      rw [Function.update_apply] at known'
      split at known'
      · exact ‹u = t› ▸ (List.mem_filter.mp known').1
      · exact known'
    obtain rfl := inv.owned u t token (owns_of_mem was rfl) (owns_of_mem known rfl)
    simp at known'
  · rw [none] at keyed
    cases keyed

/-- A token that the client has forgotten is no one's. -/
theorem Inv.own_or_free (inv : Inv sha256 φ db) (mine : owns (φ t) token = true) :
    owns (Function.update φ t ψ t) token = true ∨
      ∀ u, owns (Function.update φ t ψ u) token = false := by
  rw [Function.update_self]
  refine (Bool.eq_false_or_eq_true (owns ψ token)).imp id fun forgotten u => ?_
  rw [Function.update_apply]
  split
  · exact forgotten
  · rename_i other
    exact Bool.eq_false_iff.mpr fun yours => other (inv.owned u t token yours mine)

theorem ensured_used
    (ensured : ensureProcessingUploadIntent id token metadata db = some (answer, db')) :
    db.used ⊆ db'.used := by
  obtain ⟨⟨uuids, mid⟩, drawn, is⟩ := Option.map_eq_some_iff.mp ensured
  obtain ⟨-, -, rfl⟩ := draw_some drawn
  cases is
  exact List.subset_append_right _ _

/-- The intent that is read again is the one that was written. -/
theorem ensured_read (intentless : ∀ a, db.Has id a → a.isProcessingWith token = true →
      a.storageKey = none)
    (ensured : ensureProcessingUploadIntent id token metadata db = some (answer, db')) :
    ∀ a, answer.2 = some a → db'.Has id a ∧ a.storageKey = some answer.1 ∧
      a.hasMetadata metadata = true := by
  obtain ⟨⟨uuids, mid⟩, drawn, is⟩ := Option.map_eq_some_iff.mp ensured
  obtain ⟨-, -, rfl⟩ := draw_some drawn
  simp only [Prod.mk.injEq] at is
  obtain ⟨rfl, rfl⟩ := is
  intro b read
  dsimp only [getActiveProcessingUploadIntent] at read
  obtain ⟨has, meets⟩ := Table.mem_of_find read
  refine ⟨has, ?_⟩
  simp only [Bool.and_true, Bool.and_eq_true] at meets
  obtain ⟨a, was, is⟩ := Table.mem_update.mp has
  split at is
  · subst is
    exact ⟨rfl, by simp [ExportArtifact.hasMetadata, ExportArtifact.withMetadata]⟩
  · subst is
    have none := intentless b was (processing_of_leased meets.1)
    simp [none] at meets

theorem preparedFrom_ok {p : PreparedExportArchive}
    (is : preparedFromCommittedUploadIntent id a = .ok p) : p.artifactId = id ∧
      a.storageKey = some p.storageKey ∧ a.storageBackend = p.storageBackend ∧
      a.hasMetadata p.metadata = true := by
  unfold preparedFromCommittedUploadIntent at is
  split at is <;> cases is
  rename_i key filename contentType size checksum
  exact ⟨rfl, key, rfl, by simp [ExportArtifact.hasMetadata, filename, contentType, size, checksum]⟩

theorem hasMetadata_inj {m m' : ExportArtifact.Metadata} (first : a.hasMetadata m = true)
    (second : a.hasMetadata m' = true) : m = m' := by
  simp only [ExportArtifact.hasMetadata, Bool.and_eq_true, beq_iff_eq] at first second
  cases m
  cases m'
  grind

theorem knows_of_prepared (inv : Inv sha256 φ db) {p : PreparedExportArchive} (has : db.Has id a)
    (is : preparedFromCommittedUploadIntent id a = .ok p) : Knows db p := by
  obtain ⟨rfl, keyed, backend, metadata⟩ := preparedFrom_ok is
  refine ⟨inv.keys _ a _ has keyed, fun b hasb _ => ?_⟩
  obtain rfl := has_eq has hasb
  exact ⟨backend, .inr metadata⟩

theorem Inv.learnIntended (inv : Inv sha256 φ db)
    (mine : owns (φ t) token = true ∨ ∀ u, owns (φ u) token = false) (handed : token ∈ db.used)
    (read : ∀ a, answer.2 = some a → db.Has id a ∧ a.storageKey = some answer.1 ∧
      a.hasMetadata metadata = true) :
    Inv sha256 (Function.update φ t (intended (φ t) id token metadata answer)) db := by
  refine inv.learn fun f known => ?_
  unfold intended at known
  split at known
  · exact .inl known
  · rename_i a is
    obtain ⟨has, keyed, described⟩ := read a is
    split at known
    · exact .inl known
    · rename_i p committed
      obtain ⟨-, keyed', -, metadata'⟩ := preparedFrom_ok committed
      rw [if_pos ⟨Option.some.inj (keyed'.symm.trans keyed),
        hasMetadata_inj metadata' described⟩] at known
      refine (List.mem_cons.mp known).symm.imp_right ?_
      rintro rfl
      refine ⟨⟨by rintro _ ⟨⟩; exact handed, knows_of_prepared inv has committed⟩, nofun, ?_⟩
      rintro _ ⟨⟩
      exact mine

theorem Inv.learnFound (inv : Inv sha256 φ db) (has : db.Has id a)
    (processing : a.isProcessingWith token = true) :
    Inv sha256 (Function.update φ t (found (φ t) id token a)) db := by
  refine inv.learn fun f known => ?_
  unfold found at known
  split at known
  · exact .inl known
  · rename_i mine
    rw [Bool.not_eq_false] at mine
    obtain ⟨g, knownG, isG⟩ := List.any_eq_true.mp mine
    have handed := (inv.facts t g knownG).handed token (by simpa using isG)
    split at known
    · rename_i none
      refine (List.mem_cons.mp known).symm.imp_right ?_
      rintro rfl
      refine ⟨⟨by rintro _ ⟨⟩; exact handed, fun b hasb _ => ?_⟩, nofun, by
        rintro _ ⟨⟩; exact .inl mine⟩
      exact has_eq has hasb ▸ Option.isNone_iff_eq_none.mp none
    · rename_i keyed
      split at known
      · rename_i intentless
        have none := (inv.facts t _ intentless).isTrue a has processing
        simp [none] at keyed
      · split at known
        · rename_i p committed
          refine (List.mem_cons.mp known).symm.imp_right ?_
          rintro rfl
          refine ⟨⟨by rintro _ ⟨⟩; exact handed, knows_of_prepared inv has committed⟩, nofun, ?_⟩
          rintro _ ⟨⟩
          exact .inl mine
        · exact .inl known

theorem Inv.learnReset (inv : Inv sha256 φ db) {p : PreparedExportArchive}
    (known : .cleaned p token ∈ φ t)
    (none : ∀ a, db.Has p.artifactId a → a.storageKey = none) :
    Inv sha256 (Function.update φ t (.intentless p.artifactId token :: φ t)) db := by
  refine inv.learn fun f new => (List.mem_cons.mp new).symm.imp_right ?_
  rintro rfl
  refine ⟨⟨by rintro _ ⟨⟩; exact (inv.facts t _ known).handed token rfl, fun a has _ => none a has⟩,
    nofun, ?_⟩
  rintro _ ⟨⟩
  exact .inl (owns_of_mem known rfl)

/-- The client resets its intent where nothing is at the key, and then the artifact has none. -/
theorem Inv.resetIntent (inv : Inv sha256 φ db) {p : PreparedExportArchive}
    (known : .cleaned p token ∈ φ t) :
    Inv sha256 φ (resetProcessingUploadIntent p token db).2 ∧
      ((resetProcessingUploadIntent p token db).1 = true → ∀ b,
        (resetProcessingUploadIntent p token db).2.Has p.artifactId b → b.storageKey = none) := by
  have cleaned := (inv.facts t _ known).isTrue.2
  refine ⟨inv.update _ _ fun id a has meets => ?_, fun reset b has => ?_⟩
  · simp only [isAt, Bool.and_eq_true, beq_iff_eq] at meets
    obtain ⟨rfl, leased, backend, keyed⟩ := meets
    refine rewritten_withoutStorage fun key is => ?_
    cases keyed.symm.trans is
    exact backend ▸ cleaned a has ⟨processing_of_leased leased, keyed⟩
  · obtain ⟨a, is⟩ := Option.isSome_iff_exists.mp reset
    obtain ⟨was, meets⟩ := Table.mem_of_find is
    obtain ⟨a', was', rfl⟩ := Table.mem_update.mp has
    obtain rfl := Table.eq_of_mem was was'
    rw [beq_self_eq_true, Bool.true_and, if_pos meets]
    rfl

end Intents

/-! ## The end of a generation -/

theorem Inv.markReady (inv : Inv sha256 φ db) {p : PreparedExportArchive} {token : String}
    (known : .stored p token ∈ φ t) :
    Inv sha256 φ (markGeneratedExportArtifactReady p token db).2 := by
  have stored := (inv.facts t _ known).isTrue.2
  unfold markGeneratedExportArtifactReady
  split
  · exact inv
  · rename_i a is
    split
    · exact inv
    · rename_i matches_
      refine inv.update _ _ fun id b has same => ?_
      rw [beq_iff_eq] at same
      subst same
      obtain ⟨hasA, processing⟩ := Table.mem_of_find is
      obtain rfl := has_eq hasA has
      simp only [PreparedExportArchive.matches, Bool.not_eq_false, Bool.and_eq_true,
        beq_iff_eq] at matches_
      obtain ⟨⟨backend, keyed⟩, metadata⟩ := matches_
      refine ⟨rfl, .kept rfl, fun _ _ => nofun, fun final => ?_, fun _ => .inr ?_,
        fun _ _ _ => .inr ?_⟩
      · rw [not_final_of_processing processing] at final
        cases final
      · obtain ⟨bytes, there⟩ := stored a has ⟨processing, keyed⟩
        exact ⟨_, bytes, keyed, backend.symm ▸ there⟩
      · simp only [ExportArtifact.hasMetadata, Bool.and_eq_true, beq_iff_eq] at metadata
        simp [ExportArtifact.storage, ExportArtifact.markedReady, ExportArtifact.withMetadata,
          metadata]

/-- The client that marks an artifact as failed knows that it is over. -/
theorem Inv.markFailed (inv : Inv sha256 φ db) (id : Uuid) (token text : String) :
    Inv sha256 φ (markExportArtifactFailed id token text db).2 ∧
      ∀ cleanup, (markExportArtifactFailed id token text db).1 = some cleanup →
        IsRetired (markExportArtifactFailed id token text db).2 cleanup.storageBackend
          cleanup.storageKey := by
  unfold markExportArtifactFailed
  split
  · exact ⟨inv, nofun⟩
  · rename_i a is
    have inv' : Inv sha256 φ { db with
        artifacts := db.artifacts.update (fun k _ => k == id) fun _ a =>
          a.markedFailed (generationFailureCode text) "Export generation failed" db.clock } :=
      inv.update _ _ fun id b has same =>
        rewritten_of_storage rfl rfl (fun _ _ => nofun) (fun _ => rfl) nofun
    refine ⟨inv', fun cleanup failed => ?_⟩
    simp only [failedStorageCleanup, Option.ite_none_right_eq_some,
      Option.map_eq_some_iff] at failed
    obtain ⟨-, key, keyed, rfl⟩ := failed
    refine inv'.isRetired id (a.markedFailed (generationFailureCode text)
      "Export generation failed" db.clock) ?_ keyed rfl
    exact Table.mem_update.mpr ⟨a, (Table.mem_of_find is).1, by simp⟩

theorem Inv.clearFailed (inv : Inv sha256 φ db) {cleanup : FailedExportStorageCleanup}
    (known : .emptied cleanup.storageBackend cleanup.storageKey ∈ φ t) :
    Inv sha256 φ (clearFailedExportStorageMetadata cleanup db).2 := by
  obtain ⟨retired, empty⟩ := (inv.facts t _ known).isTrue
  refine inv.update _ _ fun id a has meets => rewritten_withoutStorage fun key keyed => ?_
  simp only [Bool.and_eq_true, beq_iff_eq] at meets
  obtain ⟨rfl, -, is⟩ := meets
  cases is.symm.trans keyed
  exact retired.backend _ a has keyed ▸ empty

/-! ## Retention and erasure -/

section Retention

variable {deleted : List ExportArtifactStoragePurge}

theorem Inv.clearPurge (inv : Inv sha256 φ db) {purge : ExportArtifactStoragePurge}
    {backend : StorageBackend} (placed : purge.storageBackend = some backend)
    (known : .emptied backend purge.storageKey ∈ φ t) :
    Inv sha256 φ { db with artifacts := (clearPurge purge db.artifacts).2 } := by
  have empty := (inv.facts t _ known).isTrue.2
  unfold Retention.clearPurge
  split
  · refine inv.update _ _ fun id a has meets => rewritten_withoutStorage fun key keyed => ?_
    simp only [isPurgeTarget, Bool.and_eq_true, beq_iff_eq] at meets
    obtain ⟨⟨-, there⟩, is⟩ := meets
    cases is.symm.trans keyed
    cases there.trans placed
    exact empty
  · exact inv

theorem Inv.clearPurges (inv : Inv sha256 φ db) (emptied : allEmptied (φ t) deleted = true) :
    Inv sha256 φ { db with artifacts := (clearPurges deleted db.artifacts).2 } := by
  replace emptied := allEmptied_iff.mp emptied
  induction deleted generalizing db with
  | nil => exact inv
  | cons purge rest ih =>
      obtain ⟨⟨backend, placed, known⟩, others⟩ := List.forall_mem_cons.mp emptied
      exact ih (inv.clearPurge placed known) others

theorem isFinal_of_isPurgeable (purgeable : a.isPurgeable = true) : a.status.isFinal = true := by
  simp only [ExportArtifact.isPurgeable, Bool.or_eq_true, Bool.and_eq_true, beq_iff_eq] at purgeable
  obtain (is | is) | ⟨is, -⟩ := purgeable <;> rw [is] <;> rfl

theorem Inv.learnPurges (inv : Inv sha256 φ db) {rows : List (Uuid × ExportArtifact)}
    (has : ∀ row ∈ rows, db.Has row.1 row.2) :
    Inv sha256 (Function.update φ t ((Retention.storagePurgesFor rows).map .ofPurge ++ φ t))
      db := by
  refine inv.learnRetired fun f known => (List.mem_append.mp known).symm.imp_right fun new => ?_
  obtain ⟨purge, member, rfl⟩ := List.mem_map.mp new
  obtain ⟨row, here, names⟩ := mem_storagePurgesFor member
  refine ⟨row.2.storageBackend, purge.storageKey, ?_, inv.isRetired row.1 row.2 (has row here)
    names.key (isFinal_of_isPurgeable names.purgeable)⟩
  rw [Fact.ofPurge, ← names.backend]

theorem listed_has {kind : Retention.PurgeKind} {limit : Nat} {excluded ids : List Uuid}
    {table : Table ExportArtifact} :
    ∀ row ∈ listPurgeRetry kind limit excluded (Table.without ids table), row ∈ table.rows :=
  fun _ member => List.mem_of_mem_filter (Retention.mem_listPurgeRetry member).1

theorem Inv.learnListed (inv : Inv sha256 φ db) {c : Prop} [Decidable c]
    {kind : Retention.PurgeKind} {limit : Nat} {excluded : List Uuid} :
    Inv sha256 (Function.update φ t ((if c then Retention.storagePurgesFor
        (listPurgeRetry kind limit excluded (Table.without db.unseen db.artifacts)) else []).map
          .ofPurge ++ φ t)) db := by
  split
  · exact inv.learnPurges listed_has
  · exact inv.same

theorem Inv.flushExpired (inv : Inv sha256 φ db) (expired : List (Uuid × ExportArtifact)) :
    Inv sha256 φ { db with artifacts := flushExpired expired db.artifacts } := by
  induction expired generalizing db with
  | nil => exact inv
  | cons row rest ih =>
      have one : Inv sha256 φ { db with
          artifacts := db.artifacts.update (fun k _ => k == row.1) fun _ current =>
            row.2.flush row.2.markedExpired current } := by
        refine inv.update _ _ fun id a _ _ =>
          rewritten_of_storage ?_ ?_ (fun token _ => ?_) ?_ ?_
        · simp [ExportArtifact.flush, ExportArtifact.markedExpired]
        · simp [ExportArtifact.flush, ExportArtifact.markedExpired, ExportArtifact.storage]
        all_goals
          simp only [ExportArtifact.flush, ExportArtifact.markedExpired, written,
            ExportArtifact.isProcessingWith]
          grind [ExportArtifactStatus.isFinal]
      exact ih one

theorem Inv.expireAndList (inv : Inv sha256 φ db) (emptied : allEmptied (φ t) deleted = true)
    (expired : List (Uuid × ExportArtifact)) (limit processed : Nat) :
    Inv sha256 φ (clearExpireAndList deleted expired limit processed db).2 :=
  (inv.clearPurges emptied).flushExpired expired

theorem minimised_cancelled {subject : Uuid} (owned : a.isOwnedBy subject = true)
    (keyed : a.storageKey.isSome = true) : (a.minimised subject).status = .cancelled := by
  simp [ExportArtifact.minimised, owned, keyed]

/-- What the erasure of a subject makes of its artifacts, none of which is in processing. -/
theorem Inv.minimise (inv : Inv sha256 φ db) (subject : Uuid) :
    Inv sha256 φ (minimiseExportArtifacts subject db).2 ∧
      ∀ deletions, (minimiseExportArtifacts subject db).1 = .ok deletions → ∀ deletion ∈ deletions,
        IsRetired (minimiseExportArtifacts subject db).2 deletion.storageBackend
          deletion.storageKey := by
  simp only [minimiseExportArtifacts]
  split
  · exact ⟨inv, nofun⟩
  · rename_i none
    have idle : ∀ id a, db.Has id a → a.mentions subject = true → a.status ≠ .processing := by
      intro id a has mentions processing
      refine none (List.any_eq_true.mpr ⟨a, List.mem_filter.mpr ⟨?_, mentions⟩, ?_⟩)
      · exact List.mem_map.mpr ⟨_, has, rfl⟩
      · rw [processing]
        rfl
    have inv' : Inv sha256 φ { db with
        artifacts := db.artifacts.update (fun _ a => a.mentions subject)
          fun _ a => a.minimised subject } := by
      refine inv.update _ _ fun id a has mentions => ?_
      have waits := idle id a has mentions
      refine ⟨rfl, .kept rfl, fun token _ processing => ?_, fun final => ?_, fun ready => .inl ?_,
        fun key keyed _ => ?_⟩
      · simp only [ExportArtifact.isProcessingWith, ExportArtifact.minimised, Bool.and_eq_true,
          beq_iff_eq] at processing
        grind
      · simp only [ExportArtifact.minimised]
        split
        · rfl
        · exact final
      · simp only [ExportArtifact.minimised] at ready
        grind
      · cases owned : a.isOwnedBy subject with
        | true => exact .inl (by rw [minimised_cancelled owned (by simp [keyed])]; rfl)
        | false => exact .inr (by simp [ExportArtifact.minimised, ExportArtifact.storage, owned])
    refine ⟨inv', ?_⟩
    rintro deletions ⟨⟩ deletion member
    obtain ⟨_, here, is⟩ := List.mem_filterMap.mp member
    obtain ⟨mem, mentions⟩ := List.mem_filter.mp here
    obtain ⟨⟨id, a⟩, has, rfl⟩ := List.mem_map.mp mem
    simp only [Option.ite_none_right_eq_some, Option.map_eq_some_iff] at is
    obtain ⟨owned, key, keyed, rfl⟩ := is
    refine inv'.isRetired id (a.minimised subject) ?_ keyed ?_
    · exact Table.mem_update.mpr ⟨a, has, (if_pos mentions).symm⟩
    · rw [minimised_cancelled owned (by simp [keyed])]
      rfl

theorem Inv.withRequests (inv : Inv sha256 φ db) (requests : Uuid → Option DataSubjectRequest) :
    Inv sha256 φ { db with requests } :=
  inv.rewrite ⟨rfl, List.Subset.refl _, fun _ a has => ⟨a, has, .refl φ db _ _ a⟩,
    fun _ a has => .inr ⟨a, has, .refl φ db _ _ a⟩⟩

theorem Inv.executeErasure (inv : Inv sha256 φ db) (subject : Uuid) :
    Inv sha256 φ (executeErasure subject db).2 ∧
      ∀ deletions, (Exports.executeErasure subject db).1 = .ok deletions →
        ∀ deletion ∈ deletions, IsRetired (Exports.executeErasure subject db).2
          deletion.storageBackend deletion.storageKey := by
  obtain ⟨kept, retired⟩ := inv.minimise subject
  unfold Exports.executeErasure
  generalize minimiseExportArtifacts subject db = out at kept retired ⊢
  rcases out with ⟨_ | deletions, db'⟩
  · exact ⟨kept, nofun⟩
  · refine ⟨kept.withRequests _, ?_⟩
    rintro _ ⟨⟩ deletion member
    obtain ⟨issued, backend, final⟩ := retired deletions rfl deletion member
    exact ⟨issued, backend, final⟩

theorem Inv.moves (inv : Inv sha256 φ db) (moves : Moves db db') : Inv sha256 φ db' := by
  obtain ⟨downloadedAt, downloadCount, artifacts⟩ := moves.artifacts
  refine inv.rewrite (rewrites_update moves.objects (by rw [moves.used]; exact List.Subset.refl _)
    artifacts fun id a _ _ => rewritten_of_storage rfl rfl (fun _ _ same => same)
      (fun final => final) fun ready => ready)

end Retention

end SaasTemplate.Exports
