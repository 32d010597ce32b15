import SaasTemplate.Privacy.DeliveryPhases
import SaasTemplate.Privacy.RetentionPhases

/-! # What the retention pass deletes and clears

One client runs the export steps of the retention, and the others whatever they like: erasures,
workers, deliveries or more passes. What a phase says holds in every run.
-/

set_option linter.unusedSectionVars false

namespace SaasTemplate.Privacy

open SaasTemplate.Isolation SaasTemplate.Isolation.Prog
open SaasTemplate.Outbox (written_self written_same)
open Retention (PurgeKind storagePurgesFor)

variable {τ : Type} [DecidableEq τ]

abbrev PassConfig (τ : Type) : Type := Config τ PassStatement PassAnswer AppError (PassDb τ) Nat

abbrev PassStep : PassConfig τ → PassConfig τ → Prop := (passMachine τ).Step fun _ _ _ => True

abbrev PassReaches : PassConfig τ → PassConfig τ → Prop :=
  (passMachine τ).Reaches fun _ _ _ => True

/-- The artifacts of a configuration. -/
abbrev PassDb.artifacts (db : PassDb τ) : Table Uuid τ ExportArtifact := db.privacy.artifacts

/-- Before `c`, a row that the purge names was committed, one that nobody may download. -/
def WasPurgeable (start c : PassConfig τ) (p : ExportArtifactStoragePurge) : Prop :=
  ∃ d row, PassReaches start d ∧ PassReaches d c ∧
    d.db.artifacts.committed p.artifactId = some row ∧ p.Names p.artifactId row

/-- Before `c`, storage has deleted the object of the purge for `t`. -/
def WasDeleted (start c : PassConfig τ) (t : τ) (p : ExportArtifactStoragePurge) : Prop :=
  ∃ d e, PassReaches start d ∧ PassStep d e ∧ PassReaches e c ∧
    e.db.deleted = (t, p) :: d.db.deleted

/-- What an artifact says of its object. -/
def ExportArtifact.storage (a : ExportArtifact) :
    Option String × Option String × Option String × Option Nat × Option String :=
  (a.storageKey, a.filename, a.contentType, a.sizeBytes, a.checksumSha256)

/-- The row that a purge looks for, as the statement that locks it finds it. -/
structure ExportArtifactStoragePurge.Finds (p : ExportArtifactStoragePurge) (a : ExportArtifact) :
    Prop where
  status : a.status = p.expectedStatus
  backend : p.storageBackend.all (a.storageBackend == ·) = true
  key : a.storageKey = some p.storageKey

/-- The storage metadata of an artifact is cleared, and it is still the one of the purge. -/
structure ExportArtifactStoragePurge.Clears (p : ExportArtifactStoragePurge) (id : Uuid)
    (a a' : ExportArtifact) : Prop where
  artifact : p.artifactId = id
  status : a.status = p.expectedStatus
  backend : some a.storageBackend = p.storageBackend
  key : a.storageKey = some p.storageKey
  cleared : a' = a.withoutStorage

variable {start c d : PassConfig τ} {t u : τ} {φ ψ : PassPhase} {p : ExportArtifactStoragePurge}
  {s : PassStatement} {db db' : PassDb τ}

theorem WasPurgeable.later (h : WasPurgeable start c p) (step : PassStep c d) :
    WasPurgeable start d p := by
  obtain ⟨b, row, before, after, here, names⟩ := h
  exact ⟨b, row, before, after.tail step, here, names⟩

theorem WasDeleted.later (h : WasDeleted start c t p) (step : PassStep c d) :
    WasDeleted start d t p := by
  obtain ⟨a, b, before, deletes, after, is⟩ := h
  exact ⟨a, b, before, deletes, after.tail step, is⟩

/-- What the phase of `t` says of a configuration. -/
structure PassFacts (t : τ) (start c : PassConfig τ) (φ : PassPhase) : Prop where
  listed : ∀ p ∈ φ.listed, WasPurgeable start c p
  deleted : ∀ p ∈ φ.deleted, WasDeleted start c t p ∧ p.storageBackend.isSome = true
  held : ∀ row ∈ φ.held, c.db.artifacts.holder row.1 = some t ∧
    c.db.artifacts.pending row.1 = some row.2
  target : ∀ p a, φ.target = some (p, a) → (p.artifactId, a) ∈ φ.held ∧ p.Finds a
  clean : φ.clean = true → Table.HoldsNone t c.db.artifacts

namespace PassFacts

theorem initial (free : Table.HoldsNone t start.db.artifacts) :
    PassFacts t start start ⟨[], [], [], none, true⟩ :=
  ⟨by simp, by simp, by simp, by simp, fun _ => free⟩

theorem listed_later (h : PassFacts t start c φ) (step : PassStep c d) :
    ∀ p ∈ φ.listed, WasPurgeable start d p :=
  fun p member => (h.listed p member).later step

theorem deleted_later (h : PassFacts t start c φ) (step : PassStep c d) :
    ∀ p ∈ φ.deleted, WasDeleted start d t p ∧ p.storageBackend.isSome = true :=
  fun p member => (h.deleted p member).imp_left fun was => was.later step

/-- A step that leaves alone what `t` holds. -/
theorem keep (h : PassFacts t start c φ) (step : PassStep c d)
    (keeps : c.db.artifacts.Keeps t d.db.artifacts) : PassFacts t start d φ where
  listed := h.listed_later step
  deleted := h.deleted_later step
  held row member := by
    obtain ⟨held, pending⟩ := h.held row member
    have same := keeps.cell held
    exact ⟨by rwa [Table.holder, same], by rwa [Table.pending, same]⟩
  target := h.target
  clean is := keeps.holdsNone (h.clean is)

/-- What is left to say after a write. -/
theorem wrote (h : PassFacts t start c φ) (step : PassStep c d) : PassFacts t start d φ.wrote where
  listed := h.listed_later step
  deleted := h.deleted_later step
  held := by simp [PassPhase.wrote]
  target := by simp [PassPhase.wrote]
  clean := by simp [PassPhase.wrote]

/-- What `t` sees of a row that it holds. -/
theorem view (h : PassFacts t start c φ) {row : Uuid × ExportArtifact} (member : row ∈ φ.held) :
    c.db.artifacts.view t row.1 = some row.2 := by
  obtain ⟨held, pending⟩ := h.held row member
  rwa [Table.view_of_held held]

end PassFacts

/-! ## Statements of the pass -/

theorem exec_passRead {s : Statement} {db db' : Db τ} {r : Except AppError (Answer s)}
    (reads : s.isPassRead = true) (h : exec t s db = some (r, db')) :
    db'.artifacts = db.artifacts := by
  cases s with
  | flushRequest id loaded assigned => exact exec_flushRequest h
  | now | artifactById | artifactsOfRequest | requestById | recordAuditEvent
  | expiredReadyArtifacts =>
      cases h
      rfl
  | _ => cases reads

/-- The statements that the automaton names. -/
def Statement.isPassEffect : Statement → Bool
  | .commit | .rollback | .lockPurgeRetry _ _ | .lockPurgeTarget _ _ _ _
  | .flushArtifact _ _ _ _ => true
  | _ => false

/-- All others read. -/
theorem PassPhase.next_other {s : Statement} (other : s.isPassEffect = false)
    {r : Except AppError (Answer s)} (h : PassPhase.next φ (.sql s) r = some ψ) :
    s.isPassRead = true ∧ ψ = φ := by
  cases s <;> first
    | (cases other; done)
    | (cases r <;> first
        | exact ⟨rfl, (Option.some.inj h).symm⟩
        | cases h)

theorem flush_self (loaded assigned : ExportArtifact) :
    loaded.flush assigned loaded = assigned := by
  simp [ExportArtifact.flush]

theorem storage_flush_markedExpired (loaded current : ExportArtifact) :
    (loaded.flush loaded.markedExpired current).storage = current.storage := by
  simp [ExportArtifact.flush, ExportArtifact.markedExpired, ExportArtifact.storage]

/-! ## Steps -/

/-- What another client does to the rows that `t` holds. -/
theorem passExec_keeps (other : t ≠ u) {r : Except AppError (PassAnswer s)}
    (h : passExec u s db = some (r, db')) : db.artifacts.Keeps t db'.artifacts := by
  cases s with
  | sql s =>
      obtain ⟨⟨r', privacy⟩, executed, is⟩ := Option.map_eq_some_iff.mp h
      cases is
      exact (exec_case executed).respects.2.keeps other
  | cancelledErasurePurgeRetry | purgeRetryIds | deleteObject =>
      cases h
      exact .refl t _

namespace PassFacts

variable {run : τ → Option (Prog PassStatement PassAnswer AppError Nat)} {id : Uuid}
  {row : ExportArtifact}

/-- A row that `t` locks joins those that it holds. -/
theorem lock (h : PassFacts t start c φ) {privacy : Db τ} {q : ExportArtifact → Bool}
    {r : Except AppError (Option ExportArtifact)}
    (locks : lockArtifact t id q c.db.privacy = some (r, privacy))
    (step : PassStep c ⟨{ c.db with privacy }, run⟩) :
    r = .ok none ∧ PassFacts t start ⟨{ c.db with privacy }, run⟩ φ ∨ ∃ row, r = .ok (some row) ∧
      q row = true ∧ PassFacts t start ⟨{ c.db with privacy }, run⟩ (φ.locked id r) := by
  rcases lockArtifact_cases locks with ⟨rfl, rfl⟩ | ⟨row, seen, holds, free, rfl, rfl⟩
  · exact .inl ⟨rfl, h.keep step (.refl t _)⟩
  · refine .inr ⟨row, rfl, holds, ?_⟩
    have seen : c.db.artifacts.view t id = some row := seen
    have mine : ∀ other ∈ (id, row) :: φ.held,
        (c.db.artifacts.put t id (some row)).holder other.1 = some t ∧
          (c.db.artifacts.put t id (some row)).pending other.1 = some other.2 := by
      intro other member
      rcases List.mem_cons.mp member with rfl | before
      · simp
      · by_cases same : other.1 = id
        · have is := h.view before
          rw [same] at is ⊢
          cases seen.symm.trans is
          simp
        · obtain ⟨held, pending⟩ := h.held other before
          rw [Table.holder_put_other same, Table.pending_put_other same]
          exact ⟨held, pending⟩
    exact ⟨h.listed_later step, h.deleted_later step, mine,
      fun p a is => (h.target p a is).imp_left (List.mem_cons_of_mem _), by simp [PassPhase.locked]⟩

/-- The row of a purge is the last one that it has locked. -/
theorem found (h : PassFacts t start c φ) {privacy : Db τ}
    {r : Except AppError (Option ExportArtifact)}
    (locks : exec t (.lockPurgeTarget p.artifactId p.expectedStatus p.storageBackend p.storageKey)
      c.db.privacy = some (r, privacy)) (step : PassStep c ⟨{ c.db with privacy }, run⟩) :
    PassFacts t start ⟨{ c.db with privacy }, run⟩ (φ.found p r) := by
  rcases h.lock locks step with ⟨rfl, kept⟩ | ⟨row, rfl, holds, kept⟩
  · exact kept
  · simp only [Bool.and_eq_true, beq_iff_eq] at holds
    refine ⟨kept.listed, kept.deleted, kept.held, ?_, by simp [PassPhase.found]⟩
    intro q a is
    simp only [PassPhase.found, Option.some.injEq, Prod.mk.injEq] at is
    obtain ⟨rfl, rfl⟩ := is
    exact ⟨List.mem_cons_self, holds.1.1, holds.1.2, holds.2⟩

/-- A commit makes what was listed under locks committed rows. -/
theorem commit (h : PassFacts t start c φ) (reached : PassReaches start c)
    (step : PassStep c ⟨{ c.db with privacy := c.db.privacy.commit t }, run⟩) :
    PassFacts t start ⟨{ c.db with privacy := c.db.privacy.commit t }, run⟩
      ⟨storagePurgesFor φ.held ++ φ.listed, φ.deleted, [], none, true⟩ := by
  refine ⟨fun p member => ?_, h.deleted_later step, by simp, by simp, fun _ k held => ?_⟩
  · rcases List.mem_append.mp member with mine | before
    · obtain ⟨row, held, names⟩ := mem_storagePurgesFor mine
      have here := h.view held
      rw [← names.artifact] at here
      refine ⟨_, row.2, reached.tail step, .refl, ?_, ⟨rfl, names.purgeable, names.status,
        names.backend, names.key⟩⟩
      exact (Table.committed_commit t _ _).trans here
    · exact h.listed_later step p before
  · have after : (c.db.artifacts.commit t).holder k = some t := held
    rw [Table.holder_commit] at after
    split at after
    · cases after
    · contradiction

theorem rollback (h : PassFacts t start c φ)
    (step : PassStep c ⟨{ c.db with privacy := c.db.privacy.rollback t }, run⟩) :
    PassFacts t start ⟨{ c.db with privacy := c.db.privacy.rollback t }, run⟩
      { φ with held := [], target := none, clean := true } := by
  refine ⟨h.listed_later step, h.deleted_later step, by simp, by simp, fun _ k held => ?_⟩
  have after : (c.db.artifacts.rollback t).holder k = some t := held
  rw [Table.holder_rollback] at after
  split at after
  · cases after
  · contradiction

/-- What a plain query lists is committed where the transaction has locked nothing. -/
theorem list (h : PassFacts t start c φ) (reached : PassReaches start c) (clean : φ.clean = true)
    (step : PassStep c ⟨c.db, run⟩) :
    PassFacts t start ⟨c.db, run⟩
      { φ with listed := storagePurgesFor (purgeRetryRows t .cancelled c.db.privacy) ++
        φ.listed } := by
  have kept := h.keep step (.refl t _)
  refine ⟨fun p member => ?_, kept.deleted, kept.held, kept.target, kept.clean⟩
  rcases List.mem_append.mp member with mine | before
  · obtain ⟨row, here, names⟩ := mem_storagePurgesFor mine
    have seen : c.db.artifacts.view t row.1 = some row.2 := by
      rw [purgeRetryRows, List.mem_insertionSort] at here
      exact (Table.mem_select.mp here).1
    rw [(h.clean clean).view, ← names.artifact] at seen
    exact ⟨c, row.2, reached, .single step, seen, rfl, names.purgeable, names.status,
      names.backend, names.key⟩
  · exact kept.listed p before

theorem delete (h : PassFacts t start c φ) (reached : PassReaches start c) (listed : p ∈ φ.listed)
    (step : PassStep c ⟨{ c.db with deleted := (t, p) :: c.db.deleted }, run⟩) :
    PassFacts t start ⟨{ c.db with deleted := (t, p) :: c.db.deleted }, run⟩
      { φ with deleted := p :: φ.deleted } := by
  have kept := h.keep step (.refl t _)
  refine ⟨kept.listed, fun q member => ?_, kept.held, kept.target, kept.clean⟩
  rcases List.mem_cons.mp member with rfl | before
  · obtain ⟨d, row, -, -, -, names⟩ := h.listed q listed
    exact ⟨⟨c, _, reached, step, .refl, rfl⟩, by simp [← names.backend]⟩
  · exact kept.deleted q before

/-- An own step that leaves the artifacts alone. -/
theorem still (h : PassFacts t start c φ) {privacy : Db τ}
    (same : privacy.artifacts = c.db.artifacts) (step : PassStep c ⟨{ c.db with privacy }, run⟩) :
    PassFacts t start ⟨{ c.db with privacy }, run⟩ φ :=
  h.keep step (by show c.db.artifacts.Keeps t privacy.artifacts; rw [same]; exact .refl t _)

theorem exec (h : PassFacts t start c φ) (reached : PassReaches start c)
    {r : Except AppError (PassAnswer s)} (executed : passExec t s c.db = some (r, db'))
    (step : PassStep c ⟨db', run⟩) (next : PassPhase.next φ s r = some ψ) :
    PassFacts t start ⟨db', run⟩ ψ := by
  cases s with
  | deleteObject p =>
      cases executed
      simp only [PassPhase.next, Option.ite_none_right_eq_some, Option.some.injEq] at next
      obtain ⟨listed, rfl⟩ := next
      exact h.delete reached listed step
  | cancelledErasurePurgeRetry =>
      cases executed
      simp only [PassPhase.next, Option.ite_none_right_eq_some, Option.some.injEq] at next
      obtain ⟨clean, rfl⟩ := next
      exact h.list reached clean step
  | purgeRetryIds kind excludeIds =>
      cases executed
      cases next
      exact h.keep step (.refl t _)
  | sql s =>
      obtain ⟨⟨r', privacy⟩, ran, is⟩ := Option.map_eq_some_iff.mp executed
      cases is
      by_cases effect : s.isPassEffect = true
      · cases s with
        | commit =>
            cases ran
            cases next
            exact h.commit reached step
        | rollback =>
            cases ran
            cases next
            exact h.rollback step
        | lockPurgeRetry id status =>
            cases next
            rcases h.lock ran step with ⟨rfl, kept⟩ | ⟨row, rfl, -, kept⟩
            · exact kept
            · exact kept
        | lockPurgeTarget id status backend key =>
            cases next
            exact h.found (p := ⟨id, status, backend, key⟩) ran step
        | flushArtifact writer id loaded assigned =>
            simp only [PassPhase.next, Option.ite_none_right_eq_some, Option.some.injEq] at next
            obtain ⟨-, rfl⟩ := next
            exact h.wrote step
        | _ => cases effect
      · obtain ⟨reads, rfl⟩ := PassPhase.next_other (by simpa using effect) next
        exact h.still (exec_passRead reads ran) step

/-- A statement that has failed by itself. -/
theorem fault (h : PassFacts t start c φ) {e : AppError} (fallible : s ≠ .sql .rollback)
    (step : PassStep c ⟨c.db, run⟩) (next : PassPhase.next φ s (.error e) = some ψ) :
    PassFacts t start ⟨c.db, run⟩ ψ := by
  have same : ψ = φ ∨ ψ = φ.wrote := by
    cases s with
    | deleteObject p =>
        simp only [PassPhase.next, Option.ite_none_right_eq_some, Option.some.injEq] at next
        exact .inl next.2.symm
    | cancelledErasurePurgeRetry | purgeRetryIds => exact .inl (Option.some.inj next).symm
    | sql s =>
        by_cases effect : s.isPassEffect = true
        · cases s with
          | commit | lockPurgeRetry | lockPurgeTarget => exact .inl (Option.some.inj next).symm
          | rollback => exact absurd rfl fallible
          | flushArtifact writer id loaded assigned =>
              simp only [PassPhase.next, Option.ite_none_right_eq_some, Option.some.injEq] at next
              exact .inr next.2.symm
          | _ => cases effect
        · exact .inl (PassPhase.next_other (by simpa using effect) next).2
  rcases same with rfl | rfl
  · exact h.keep step (.refl t _)
  · exact h.wrote step

end PassFacts

/-! ## What clears storage metadata -/

theorem view_lockArtifact {id k : Uuid} {q : ExportArtifact → Bool} {db db' : Db τ}
    {r : Except AppError (Option ExportArtifact)} (h : lockArtifact t id q db = some (r, db')) :
    db'.artifacts.view t k = db.artifacts.view t k := by
  rcases lockArtifact_cases h with ⟨rfl, -⟩ | ⟨row, seen, -, -, -, rfl⟩
  · rfl
  · by_cases same : k = id
    · subst same
      simp [seen]
    · exact Table.view_put_other same

/-- A flush writes its own row, or nothing. -/
theorem view_flushArtifact {id k : Uuid} {writer : Writer}
    {loaded assigned row row' : ExportArtifact} {db db' : Db τ} {r : Except AppError Unit}
    (h : exec t (.flushArtifact writer id loaded assigned) db = some (r, db'))
    (before : db.artifacts.view t k = some row) (after : db'.artifacts.view t k = some row') :
    row' = row ∨ k = id ∧ row' = loaded.flush assigned row := by
  by_cases writes : assigned = loaded
  · rw [exec, if_pos writes] at h
    cases h
    exact .inl (Option.some.inj (after.symm.trans before))
  · rw [exec, if_neg writes] at h
    obtain ⟨⟨out, db''⟩, updated, is⟩ := Option.map_eq_some_iff.mp h
    cases is
    rcases updateArtifact_cases updated with rfl | ⟨current, next, seen, changed, -, rfl⟩
    · exact .inl (Option.some.inj (after.symm.trans before))
    · by_cases same : k = id
      · subst same
        cases seen.symm.trans before
        cases changed
        rw [Table.view_put_same] at after
        exact .inr ⟨rfl, (Option.some.inj after).symm⟩
      · rw [Table.view_put_other same] at after
        exact .inl (Option.some.inj (after.symm.trans before))

/-- What a statement of the pass changes in the storage metadata of a row, it clears after a
    deletion. -/
theorem PassFacts.clears (h : PassFacts t start c φ) (goes : s ≠ .sql .rollback)
    {r : Except AppError (PassAnswer s)} (executed : passExec t s c.db = some (r, db'))
    (next : PassPhase.next φ s r = some ψ) {id : Uuid} {row row' : ExportArtifact}
    (before : c.db.artifacts.view t id = some row) (after : db'.artifacts.view t id = some row')
    (changed : row'.storage ≠ row.storage) :
    ∃ p, WasDeleted start c t p ∧ p.Clears id row row' := by
  have still : db'.artifacts.view t id ≠ c.db.artifacts.view t id := by
    intro same
    rw [same, before] at after
    cases after
    exact changed rfl
  cases s with
  | deleteObject | cancelledErasurePurgeRetry | purgeRetryIds =>
      cases executed
      exact absurd rfl still
  | sql s =>
      obtain ⟨⟨r', privacy⟩, ran, is⟩ := Option.map_eq_some_iff.mp executed
      cases is
      by_cases effect : s.isPassEffect = true
      · cases s with
        | commit =>
            cases ran
            exact absurd (Table.view_commit t _ id) still
        | rollback => exact absurd rfl goes
        | lockPurgeRetry | lockPurgeTarget => exact absurd (view_lockArtifact ran) still
        | flushArtifact writer k loaded assigned =>
            simp only [PassPhase.next, Option.ite_none_right_eq_some, Option.some.injEq] at next
            obtain ⟨may, -⟩ := next
            rcases view_flushArtifact ran before after with rfl | ⟨rfl, rfl⟩
            · exact absurd rfl changed
            rcases may with ⟨-, rfl⟩ | ⟨rfl, p, deleted, rfl, target⟩
            · exact absurd (storage_flush_markedExpired loaded row) changed
            · -- the row is locked since it was found, so that it is still the one loaded
              obtain ⟨held, finds⟩ := h.target p loaded target
              cases (h.view held).symm.trans before
              obtain ⟨was, named⟩ := h.deleted p deleted
              obtain ⟨backend, is⟩ := Option.isSome_iff_exists.mp named
              have same := finds.backend
              simp only [is, Option.all_some, beq_iff_eq] at same
              exact ⟨p, was, rfl, finds.status, by rw [is, same], finds.key, flush_self _ _⟩
        | _ => cases effect
      · obtain ⟨reads, -⟩ := PassPhase.next_other (by simpa using effect) next
        exact absurd (by rw [PassDb.artifacts, exec_passRead reads ran]) still

/-! ## Runs -/

/-- The pass of `t` goes through its phases, and the other clients do anything. -/
def passPhases (t u : τ) : Automaton PassPhase PassStatement PassAnswer AppError :=
  if u = t then PassPhase.next else fun φ _ _ => some φ

theorem follows_anything (p : PassTx Nat) :
    p.Follows (fun φ _ _ => some φ) (fun _ _ => True) φ := by
  induction p with
  | done r => trivial
  | call s k ih => exact fun r => ⟨φ, rfl, ih r⟩

theorem retention_phased (t : τ) (start : PassConfig τ) :
    Phased (passMachine τ) (fun _ _ _ => True) (passPhases t) (PassReaches start)
      (fun u φ c => u = t → PassFacts t start c φ) where
  exec {c u s k r db' φ ψ} reached running _ executed holds next := by
    have step : PassStep c ⟨db', Function.update c.run u (some (k r))⟩ :=
      .exec running trivial executed
    refine ⟨⟨reached.tail step, fun v χ other held mine => ?_⟩, fun mine => ?_⟩
    · subst mine
      exact (held rfl).keep step (passExec_keeps other executed)
    · subst mine
      rw [passPhases, if_pos rfl] at next
      exact (holds rfl).exec reached executed step next
  fault {c u s k e φ ψ} reached running may holds next := by
    have step : PassStep c ⟨c.db, Function.update c.run u (some (k (.error e)))⟩ :=
      .fault e running may
    refine ⟨⟨reached.tail step, fun v χ other held mine => ?_⟩, fun mine => ?_⟩
    · exact (held mine).keep step (.refl t _)
    · subst mine
      rw [passPhases, if_pos rfl] at next
      exact (holds rfl).fault may step next
  crash {c u s k} reached running := by
    have step : PassStep c ⟨(passMachine τ).crash u c.db, Function.update c.run u none⟩ :=
      .crash running
    refine ⟨reached.tail step, fun v χ other held mine => ?_⟩
    subst mine
    exact (held rfl).keep step ((Table.respects_rollback u _).keeps other)
  env {c db'} reached moved := by
    have step : PassStep c ⟨db', c.run⟩ := .env moved
    obtain ⟨clock, rfl⟩ := moved
    exact ⟨reached.tail step, fun v χ held mine => (held mine).keep step (.refl t _)⟩

variable {now : Time} {limit nonExport : Nat}

theorem retention_starts (runs : start.run t = some (exportRetentionPass now limit nonExport))
    (free : Table.HoldsNone t start.db.artifacts) :
    InPhase (passPhases t) (fun u φ c => u = t → PassFacts t start c φ) start := by
  intro u p running
  by_cases mine : u = t
  · subst mine
    cases runs.symm.trans running
    refine ⟨_, ?_, fun _ => PassFacts.initial free⟩
    rw [passPhases, if_pos rfl]
    exact exportRetentionPass_follows now limit nonExport
  · refine ⟨⟨[], [], [], none, true⟩, ?_, fun is => absurd is mine⟩
    rw [passPhases, if_neg mine]
    exact follows_anything p

/-- Next to any other clients, and whatever fails: the pass deletes an object only where its
    row was committed as one that nobody may download; it clears storage metadata only after
    it has deleted that object, of a row that still has status, backend and key of the
    deletion; and it processes at most `limit` artifacts. -/
theorem retention_pass_safe (runs : start.run t = some (exportRetentionPass now limit nonExport))
    (free : Table.HoldsNone t start.db.artifacts) (run : PassReaches start c) :
    (∀ p, c.waiting t = some (.deleteObject p) → WasPurgeable start c p) ∧
    (∀ s r db' id row row', c.waiting t = some s → s ≠ .sql .rollback →
      passExec t s c.db = some (r, db') → c.db.artifacts.view t id = some row →
      db'.artifacts.view t id = some row' → row'.storage ≠ row.storage →
      ∃ p, WasDeleted start c t p ∧ p.Clears id row row') ∧
    ∀ n, c.result t = some (.ok n) → n ≤ limit := by
  obtain ⟨-, phases⟩ := (retention_phased t start).reaches .refl (retention_starts runs free) run
  have mine : ∀ s k, c.run t = some (.call s k) → ∀ r, ∃ φ ψ, PassFacts t start c φ ∧
      PassPhase.next φ s r = some ψ := by
    intro s k running r
    obtain ⟨φ, follows, facts⟩ := phases t _ running
    rw [passPhases, if_pos rfl] at follows
    obtain ⟨ψ, next, -⟩ := follows r
    exact ⟨φ, ψ, facts rfl, next⟩
  refine ⟨fun p waiting => ?_, fun s r db' id row row' waiting goes executed before after
    changed => ?_, fun n is => ?_⟩
  · obtain ⟨k, running⟩ := Config.run_of_waiting waiting
    obtain ⟨φ, ψ, facts, next⟩ := mine _ k running (.ok ())
    exact facts.listed p (Option.ite_none_right_eq_some.mp next).1
  · obtain ⟨k, running⟩ := Config.run_of_waiting waiting
    obtain ⟨φ, ψ, facts, next⟩ := mine s k running r
    exact facts.clears goes executed next before after changed
  · have returns := Prog.Returns.reaches (t := t) (fun p running => by
      cases runs.symm.trans running
      exact exportRetentionPass_returns now limit nonExport) run
    unfold Config.result at is
    split at is
    · rename_i r running
      cases is
      exact returns _ running
    · cases is

/-- Two passes, about the object of one export that has failed. -/
def exampleRetentionStart : PassConfig Bool where
  db := ⟨{ exampleDb with artifacts := .ofRows [(10, exampleArtifact .failed)] }, []⟩
  run _ := some (exportRetentionPass 9 5 0)

theorem anything_retained (_ : Bool) (_ : PassStatement) (_ : PassDb Bool) (_ : true = true) :
    True := trivial

/-- Both passes list the object and delete it; only one of them clears the row. -/
theorem retention_pass_safe_example :
    ∃ c, PassReaches exampleRetentionStart c ∧
      (c.db.deleted.map fun d => (d.1, d.2.artifactId), c.result false, c.result true) =
        ([(true, 10), (false, 10)], some (.ok 1), some (.ok 0)) ∧
      ∀ n, c.result false = some (.ok n) → n ≤ 5 := by
  have played : ((passMachine Bool).play (fun _ _ _ => true)
      (List.replicate 5 false ++ List.replicate 5 true ++ [false, true] ++
        List.replicate 7 false ++ List.replicate 5 true) exampleRetentionStart).map
          (fun c => (c.db.deleted.map fun d => (d.1, d.2.artifactId), c.result false,
            c.result true)) =
        some ([(true, 10), (false, 10)], some (.ok 1), some (.ok 0)) := by decide
  obtain ⟨c, run, seen⟩ := Machine.run_of_play anything_retained played
  have free : Table.HoldsNone false exampleRetentionStart.db.artifacts := fun k held => by
    cases (Table.holder_ofRows _ k).symm.trans held
  exact ⟨c, run, seen, (retention_pass_safe (t := false) rfl free run).2.2⟩

end SaasTemplate.Privacy
