import SaasTemplate.Privacy.RetentionProgram
import SaasTemplate.Privacy.Writes

/-! # The phases of the retention pass

The phase of the pass says what was listed and committed, what was deleted, and which rows the
open transaction holds. The program deletes only what is listed and clears only what is deleted,
whatever the database and storage answer.
-/

set_option linter.unusedSectionVars false

namespace SaasTemplate.Privacy

open SaasTemplate.Isolation SaasTemplate.Isolation.Prog
open Retention (PurgeKind storagePurgesFor)

/-- The purge is the one of this row, which nobody may download any more. -/
structure ExportArtifactStoragePurge.Names (p : ExportArtifactStoragePurge) (id : Uuid)
    (a : ExportArtifact) : Prop where
  artifact : p.artifactId = id
  purgeable : a.isPurgeable = true
  status : a.status = p.expectedStatus
  backend : some a.storageBackend = p.storageBackend
  key : a.storageKey = some p.storageKey

theorem mem_storagePurgesFor {p : ExportArtifactStoragePurge}
    {rows : List (Uuid × ExportArtifact)} (h : p ∈ storagePurgesFor rows) :
    ∃ row ∈ rows, p.Names row.1 row.2 := by
  obtain ⟨row, member, is⟩ := List.mem_filterMap.mp h
  refine ⟨row, member, ?_⟩
  cases key : row.2.storageKey with
  | none => simp [key] at is
  | some k =>
      simp only [key, Option.ite_none_right_eq_some, Option.some.injEq] at is
      obtain ⟨purgeable, rfl⟩ := is
      exact ⟨rfl, purgeable, rfl, rfl, key⟩

theorem storagePurgesFor_mono {rows rows' : List (Uuid × ExportArtifact)} (h : rows ⊆ rows') :
    storagePurgesFor rows ⊆ storagePurgesFor rows' := by
  intro p member
  obtain ⟨row, here, is⟩ := List.mem_filterMap.mp member
  exact List.mem_filterMap.mpr ⟨row, h here, is⟩

/-! ## Phases -/

/-- What was listed by a transaction that has committed, and what was deleted; the rows that
    the open transaction holds, the last one that it has found for a purge, and whether it
    holds none. -/
structure PassPhase where
  listed : List ExportArtifactStoragePurge
  deleted : List ExportArtifactStoragePurge
  held : List (Uuid × ExportArtifact)
  target : Option (ExportArtifactStoragePurge × ExportArtifact)
  clean : Bool

/-- The statements that leave artifacts alone. -/
def Statement.isPassRead : Statement → Bool
  | .now | .artifactById _ | .artifactsOfRequest _ | .requestById _ | .flushRequest _ _ _
  | .recordAuditEvent | .expiredReadyArtifacts _ => true
  | _ => false

namespace PassPhase

/-- After the row of a list was locked, or not. -/
def locked (φ : PassPhase) (id : Uuid) : Except AppError (Option ExportArtifact) → PassPhase
  | .ok (some row) => { φ with held := (id, row) :: φ.held, clean := false }
  | _ => φ

/-- After the row of a purge was locked, or not. -/
def found (φ : PassPhase) (p : ExportArtifactStoragePurge) :
    Except AppError (Option ExportArtifact) → PassPhase
  | .ok (some row) =>
      { φ with held := (p.artifactId, row) :: φ.held, target := some (p, row), clean := false }
  | _ => φ

/-- After a write. -/
def wrote (φ : PassPhase) : PassPhase := { φ with held := [], target := none, clean := false }

/-- The pass expires an artifact, or clears the one that it has found for a purge whose object
    is deleted. -/
abbrev MayFlush (φ : PassPhase) (writer : Writer) (id : Uuid) (loaded assigned : ExportArtifact) :
    Prop :=
  writer = .markExpired ∧ assigned = loaded.markedExpired ∨
    assigned = loaded.withoutStorage ∧ ∃ p ∈ φ.deleted, p.artifactId = id ∧
      φ.target = some (p, loaded)

def next (φ : PassPhase) (s : PassStatement) (r : Except AppError (PassAnswer s)) :
    Option PassPhase :=
  match s, r with
  | .sql .rollback, _ => some { φ with held := [], target := none, clean := true }
  | .sql .commit, .ok _ => some ⟨storagePurgesFor φ.held ++ φ.listed, φ.deleted, [], none, true⟩
  | .sql .commit, .error _ => some φ
  | .sql (.lockPurgeRetry id _), r => some (φ.locked id r)
  | .sql (.lockPurgeTarget id status backend key), r => some (φ.found ⟨id, status, backend, key⟩ r)
  | .sql (.flushArtifact writer id loaded assigned), _ =>
      if φ.MayFlush writer id loaded assigned then some φ.wrote else none
  | .sql s, _ => if s.isPassRead then some φ else none
  | .cancelledErasurePurgeRetry, .ok rows =>
      if φ.clean then some { φ with listed := storagePurgesFor rows ++ φ.listed } else none
  | .cancelledErasurePurgeRetry, .error _ => some φ
  | .purgeRetryIds _ _, _ => some φ
  | .deleteObject p, .ok _ =>
      if p ∈ φ.listed then some { φ with deleted := p :: φ.deleted } else none
  | .deleteObject p, .error _ => if p ∈ φ.listed then some φ else none

/-- The same lists and deletions, whatever is held. -/
structure Same (φ ψ : PassPhase) : Prop where
  listed : ψ.listed = φ.listed
  deleted : ψ.deleted = φ.deleted

theorem Same.refl (φ : PassPhase) : Same φ φ := ⟨rfl, rfl⟩

theorem Same.trans {φ ψ χ : PassPhase} (first : Same φ ψ) (second : Same ψ χ) : Same φ χ :=
  ⟨second.listed.trans first.listed, second.deleted.trans first.deleted⟩

theorem same_locked (φ : PassPhase) (id : Uuid) (r : Except AppError (Option ExportArtifact)) :
    Same φ (φ.locked id r) := by
  unfold locked
  split <;> exact ⟨rfl, rfl⟩

theorem same_found (φ : PassPhase) (p : ExportArtifactStoragePurge)
    (r : Except AppError (Option ExportArtifact)) : Same φ (φ.found p r) := by
  unfold found
  split <;> exact ⟨rfl, rfl⟩

theorem next_read {s : Statement} (h : s.isPassRead = true) (φ : PassPhase)
    (r : Except AppError (Answer s)) : next φ (.sql s) r = some φ := by
  cases s <;> cases h <;> cases r <;> rfl

end PassPhase

/-! ## The program -/

section Programs

open PassPhase

variable {α β : Type} {φ ψ : PassPhase} {purges : List ExportArtifactStoragePurge}

/-- The program keeps to its phases, and `Q` holds of what it returns. -/
abbrev Gets (Q : α → PassPhase → Prop) (p : PassTx α) (φ : PassPhase) : Prop :=
  p.Follows PassPhase.next (fun r ψ => ∀ a, r = .ok a → Q a ψ) φ

theorem gets_pure {Q : α → PassPhase → Prop} {a : α} (h : Q a φ) : Gets Q (pure a) φ := by
  intro b is
  cases is
  exact h

theorem gets_bind {Q : α → PassPhase → Prop} {Q' : β → PassPhase → Prop} {p : PassTx α}
    {f : α → PassTx β} (h : Gets Q p φ) (further : ∀ a ψ, Q a ψ → Gets Q' (f a) ψ) :
    Gets Q' (p >>= f) φ :=
  h.bind (fun a ψ held => further a ψ (held a rfl)) fun _ _ _ => nofun

theorem gets_read {s : Statement} (h : s.isPassRead = true) :
    Gets (fun _ ψ => ψ = φ) (passSql s) φ :=
  fun r => ⟨φ, next_read h φ r, fun _ _ => rfl⟩

theorem gets_lockPurgeRetry (id : Uuid) (status : ExportArtifactStatus) :
    Gets (fun row ψ => Same φ ψ ∧ φ.held ⊆ ψ.held ∧ ∀ a, row = some a → (id, a) ∈ ψ.held)
      (passSql (.lockPurgeRetry id status)) φ := by
  refine fun r => ⟨φ.locked id r, rfl, ?_⟩
  rintro row rfl
  refine ⟨same_locked φ id _, ?_, ?_⟩
  · cases row with
    | none => exact List.Subset.refl _
    | some a => exact List.subset_cons_self _ _
  · rintro a rfl
    exact List.mem_cons_self

/-- The statements of a program of the privacy services. -/
theorem only_lifted {P : Statement → Prop} {p : Tx α} (only : p.Only P) :
    (lifted p).Only fun s => ∃ s', s = .sql s' ∧ P s' := by
  induction p with
  | done r => trivial
  | call s k ih => exact ⟨⟨s, rfl, only.1⟩, fun r => ih r (only.2 r)⟩

theorem gets_flush {writer : Writer} {id : Uuid} {loaded assigned : ExportArtifact}
    (may : φ.MayFlush writer id loaded assigned) :
    Gets (fun _ ψ => Same φ ψ) (lifted (saveArtifact writer id loaded assigned)) φ := by
  have saved : ∀ ψ, Gets (fun _ χ => χ = ψ) (lifted (do
      let refreshed ← sql (.artifactById id)
      pure (refreshed.getD assigned))) ψ := by
    intro ψ r
    refine ⟨ψ, next_read (s := .artifactById id) rfl ψ r, ?_⟩
    cases r with
    | ok refreshed => exact gets_pure rfl
    | error e => exact fun _ => nofun
  intro r
  refine ⟨φ.wrote, if_pos may, ?_⟩
  cases r with
  | ok u => exact (saved φ.wrote).mono fun _ χ same a is => same a is ▸ ⟨rfl, rfl⟩
  | error e => exact fun _ => nofun

theorem gets_clearMetadata {p : ExportArtifactStoragePurge} (deleted : p ∈ φ.deleted) :
    Gets (fun _ ψ => Same φ ψ) (clearExportStoragePurgeMetadata p) φ := by
  have lock : Gets (fun row ψ => Same φ ψ ∧ ∀ a, row = some a → ψ.target = some (p, a))
      (passSql (.lockPurgeTarget p.artifactId p.expectedStatus p.storageBackend p.storageKey))
      φ := by
    refine fun r => ⟨φ.found p r, rfl, ?_⟩
    rintro row rfl
    refine ⟨same_found φ p _, ?_⟩
    rintro a rfl
    rfl
  refine gets_bind lock fun row ψ ⟨same, target⟩ => ?_
  cases row with
  | none => exact gets_pure same
  | some artifact =>
      dsimp only
      split
      · have there : p ∈ ψ.deleted := same.deleted ▸ deleted
        refine gets_bind (gets_flush (.inr ⟨rfl, p, there, rfl, target artifact rfl⟩))
          fun _ χ further => gets_pure (same.trans further)
      · exact gets_pure same

theorem gets_clear (deleted : ∀ p ∈ purges, p ∈ φ.deleted) :
    Gets (fun _ ψ => Same φ ψ) (clearExportStoragePurges purges) φ := by
  induction purges generalizing φ with
  | nil => exact gets_pure (.refl φ)
  | cons p rest ih =>
      refine gets_bind (gets_clearMetadata (deleted p (by simp))) fun found ψ same => ?_
      have others : ∀ q ∈ rest, q ∈ ψ.deleted :=
        fun q member => same.deleted ▸ deleted q (by simp [member])
      exact gets_bind (ih others) fun cleared χ further => gets_pure (same.trans further)

theorem gets_collectLocked (kind : PurgeKind) (limit : Nat) (ids : List Uuid) :
    Gets (fun rows ψ => Same φ ψ ∧ φ.held ⊆ ψ.held ∧ rows ⊆ ψ.held)
      (collectUpTo limit ids fun id => do
        let row ← passSql (.lockPurgeRetry id kind.status)
        pure (row.map fun row => (id, row))) φ := by
  induction ids generalizing φ limit with
  | nil => exact gets_pure ⟨.refl φ, List.Subset.refl _, List.nil_subset _⟩
  | cons id rest ih =>
      unfold collectUpTo
      split
      · exact gets_pure ⟨.refl φ, List.Subset.refl _, List.nil_subset _⟩
      · refine gets_bind (gets_bind (gets_lockPurgeRetry id _) fun row ψ held =>
          gets_pure
            (Q := fun (row : Option (Uuid × ExportArtifact)) ψ =>
              Same φ ψ ∧ φ.held ⊆ ψ.held ∧ row.toList ⊆ ψ.held) ?_)
          fun row ψ kept => ?_
        · obtain ⟨same, grows, mine⟩ := held
          refine ⟨same, grows, ?_⟩
          cases row with
          | none => exact List.nil_subset _
          | some a => simpa using mine a rfl
        · obtain ⟨same, grows, mine⟩ := kept
          refine gets_bind (ih _) fun rows χ later => gets_pure ?_
          obtain ⟨further, grows', others⟩ := later
          refine ⟨same.trans further, List.Subset.trans grows grows', ?_⟩
          exact List.append_subset.mpr ⟨List.Subset.trans mine grows', others⟩

theorem gets_list (kind : PurgeKind) (limit : Nat) (excludeIds : List Uuid) :
    Gets (fun purges ψ => Same φ ψ ∧ purges ⊆ storagePurgesFor ψ.held)
      (listStoragePurges kind limit excludeIds) φ := by
  refine gets_bind (Q := fun _ ψ => ψ = φ) (fun r => ⟨φ, by cases r <;> rfl, fun _ _ => rfl⟩)
    fun ids ψ is => ?_
  subst is
  exact gets_bind (gets_collectLocked kind limit ids) fun rows χ ⟨same, _, held⟩ =>
    gets_pure ⟨same, storagePurgesFor_mono held⟩

/-- A list that is not asked for is empty. -/
theorem gets_ifRemaining {remaining : Nat} {p : PassTx (List α)} {Q : List α → PassPhase → Prop}
    (asked : Gets Q p φ) (empty : Q [] φ) : Gets Q (ifRemaining remaining p) φ := by
  unfold ifRemaining
  split
  · exact asked
  · exact gets_pure empty

/-- The statements of an expiry. -/
def Statement.Expires (s : Statement) : Prop :=
  s.isPassRead = true ∨ ∃ id loaded, s = .flushArtifact .markExpired id loaded loaded.markedExpired

theorem expires_expireEach (now : Time) (rows : List (Uuid × ExportArtifact)) :
    (expireEach now rows).Only Statement.Expires := by
  have syncs : ∀ s : Statement, s.Syncs → s.Expires := by
    intro s h
    cases s <;> first | exact h.elim | exact .inl rfl
  induction rows with
  | nil => trivial
  | cons row rest ih =>
      refine only_bind (only_bind (only_stmt.mpr (.inr ⟨_, _, rfl⟩)) fun _ =>
        only_bind (only_stmt.mpr (.inl rfl)) fun _ => only_pure _) fun expired => ?_
      refine only_bind (only_bind (only_bind ((syncs_artifactsOfRequest _ rest).mono syncs)
        fun _ => only_pure _) fun _ => (syncs_syncExecutionState _ _ _ _ _).mono syncs) fun _ => ?_
      exact only_bind (only_stmt.mpr (.inl rfl)) fun _ => ih

theorem gets_expireReady (now : Time) (limit : Nat) :
    Gets (fun _ ψ => Same φ ψ) (expireReady now limit) φ := by
  refine gets_bind (gets_read rfl) fun expired ψ is => ?_
  subst is
  have each : Gets (fun _ χ => Same ψ χ) (lifted (expireEach now (expired.take limit))) ψ := by
    refine ((only_lifted (expires_expireEach now _)).follows_keeping
      (I := fun χ => Same ψ χ) (fun s χ is same r => ?_) (.refl ψ)).mono fun _ _ same _ _ => same
    obtain ⟨s, rfl, reads | ⟨id, loaded, rfl⟩⟩ := is
    · exact ⟨χ, next_read reads χ r, same⟩
    · exact ⟨χ.wrote, if_pos (.inl ⟨rfl, rfl⟩), same.trans ⟨rfl, rfl⟩⟩
  exact gets_bind each fun _ χ same => gets_pure same

theorem gets_failedStep {limit : Nat} (deleted : ∀ p ∈ purges, p ∈ φ.deleted) :
    Gets (fun out ψ => out.2 ⊆ storagePurgesFor ψ.held) (failedStep limit purges) φ := by
  refine gets_bind (gets_clear deleted) fun cleared ψ _ => ?_
  refine gets_bind (gets_ifRemaining (Q := fun purges χ => purges ⊆ storagePurgesFor χ.held)
    ((gets_list _ _ _).mono fun _ _ got a is => (got a is).2) (List.nil_subset _)) ?_
  exact fun purges χ listed => gets_pure listed

theorem gets_expiredStep {now : Time} {limit processed : Nat}
    (deleted : ∀ p ∈ purges, p ∈ φ.deleted) :
    Gets (fun out ψ => out.2 ⊆ storagePurgesFor ψ.held) (expiredStep now limit processed purges)
      φ := by
  refine gets_bind (gets_clear deleted) fun cleared ψ _ => ?_
  refine gets_bind (gets_ifRemaining (gets_expireReady now _) (.refl _)) fun ids χ _ => ?_
  refine gets_bind (gets_ifRemaining (Q := fun purges χ => purges ⊆ storagePurgesFor χ.held)
    ((gets_list _ _ _).mono fun _ _ got a is => (got a is).2) (List.nil_subset _)) ?_
  exact fun purges χ listed => gets_pure listed

/-- What a transaction has listed may be deleted once it has committed. -/
theorem gets_transaction {body : PassTx α} {f : α → List ExportArtifactStoragePurge}
    (h : Gets (fun a ψ => f a ⊆ storagePurgesFor ψ.held ++ ψ.listed) body φ) :
    Gets (fun a ψ => f a ⊆ ψ.listed ∧ ψ.clean = true) (passTransaction body) φ := by
  refine h.block (fun a ψ held r => ?_) (fun ψ r => ⟨_, by cases r <;> rfl⟩) fun _ _ _ => nofun
  cases r with
  | ok x =>
      refine ⟨_, rfl, fun _ _ b is => ?_⟩
      cases is
      exact ⟨held a rfl, rfl⟩
  | error e => exact ⟨ψ, rfl, fun _ => nofun⟩

theorem gets_delete (listed : purges ⊆ φ.listed) :
    Gets (fun out ψ => φ.deleted ⊆ ψ.deleted ∧ ∀ p ∈ out.1, p ∈ ψ.deleted)
      (deleteExportStoragePurges purges) φ := by
  induction purges generalizing φ with
  | nil => exact gets_pure ⟨List.Subset.refl _, nofun⟩
  | cons p rest ih =>
      have asked : Gets (fun answer ψ => ψ.listed = φ.listed ∧ φ.deleted ⊆ ψ.deleted ∧
          ∀ u, answer = .ok u → p ∈ ψ.deleted) (stmt (PassStatement.deleteObject p)).attempt φ := by
        intro r
        have may : p ∈ φ.listed := listed (by simp)
        cases r with
        | ok u =>
            refine ⟨{ φ with deleted := p :: φ.deleted }, if_pos may, fun answer is => ?_⟩
            exact ⟨rfl, List.subset_cons_self _ _, fun _ _ => List.mem_cons_self⟩
        | error e =>
            refine ⟨φ, if_pos may, fun answer is => ?_⟩
            cases is
            exact ⟨rfl, List.Subset.refl _, nofun⟩
      refine gets_bind asked fun answer ψ ⟨same, grows, mine⟩ => ?_
      have others : rest ⊆ ψ.listed := same ▸ List.Subset.trans (List.subset_cons_self _ _) listed
      refine gets_bind (ih others) fun out χ ⟨grows', rest⟩ => ?_
      cases answer with
      | ok u =>
          refine gets_pure ⟨List.Subset.trans grows grows', fun q member => ?_⟩
          rcases List.mem_cons.mp member with rfl | there
          · exact grows' (mine u rfl)
          · exact rest q there
      | error e => exact gets_pure ⟨List.Subset.trans grows grows', rest⟩

/-- The pass, from a start at which it holds no row. -/
theorem exportRetentionPass_follows (now : Time) (limit nonExport : Nat) :
    (exportRetentionPass now limit nonExport).Follows PassPhase.next (fun _ _ => True)
      ⟨[], [], [], none, true⟩ := by
  have cancelled : Gets (fun purges ψ => purges ⊆ ψ.listed ∧ ψ.clean = true)
      (passTransaction (listCancelledErasureStoragePurges limit)) ⟨[], [], [], none, true⟩ := by
    refine gets_transaction (f := id) (gets_bind (Q := fun rows ψ =>
      storagePurgesFor rows ⊆ ψ.listed) (fun r => ?_) fun rows ψ listed => gets_pure ?_)
    · cases r with
      | ok rows => exact ⟨_, rfl, fun _ is => by cases is; simp⟩
      | error e => exact ⟨_, rfl, fun _ => nofun⟩
    · exact List.subset_append_of_subset_right _
        (List.Subset.trans (storagePurgesFor_mono (List.take_subset _ _)) listed)
  have whole : Gets (fun _ _ => True) (exportRetentionPass now limit nonExport)
      ⟨[], [], [], none, true⟩ := by
    refine gets_bind (Q := fun _ ψ => ψ = ⟨[], [], [], none, true⟩) ?_ fun _ ψ is => ?_
    · exact follows_raiseIf (fun _ _ => rfl) fun _ => nofun
    subst is
    refine gets_bind cancelled fun purges ψ ⟨listed, _⟩ => ?_
    refine gets_bind (gets_delete listed) fun ⟨deleted, failures⟩ ψ ⟨_, gone⟩ => ?_
    refine gets_bind (gets_transaction (f := fun out => out.2) ((gets_failedStep gone).mono ?_))
      fun ⟨processed, purges⟩ ψ ⟨listed, _⟩ => ?_
    · exact fun _ _ got a is => List.subset_append_of_subset_left _ (got a is)
    refine gets_bind (gets_delete listed) fun ⟨deleted, more⟩ ψ ⟨_, gone⟩ => ?_
    refine gets_bind (gets_transaction (f := fun out => out.2) ((gets_expiredStep gone).mono ?_))
      fun ⟨processed, purges⟩ ψ ⟨listed, _⟩ => ?_
    · exact fun _ _ got a is => List.subset_append_of_subset_left _ (got a is)
    refine gets_bind (gets_delete listed) fun ⟨deleted, last⟩ ψ ⟨_, gone⟩ => ?_
    refine gets_bind (gets_transaction (f := fun _ => []) ((gets_clear gone).mono ?_)) ?_
    · exact fun _ _ _ _ _ => List.nil_subset _
    intro cleared ψ _
    dsimp only
    split
    · exact gets_pure trivial
    · split
      · exact fun _ => nofun
      · exact gets_pure trivial
  exact whole.mono fun _ _ _ => trivial

end Programs

end SaasTemplate.Privacy
