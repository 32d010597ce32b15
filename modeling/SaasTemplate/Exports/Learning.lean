import SaasTemplate.Exports.Knowledge

/-! # Every client of the pipeline knows enough

Each program keeps to the automaton: where it deletes, publishes, resets or reports an archive
as ready, it has learnt the fact that this needs, whatever its statements answered.
-/

set_option linter.unusedSectionVars false

namespace SaasTemplate.Exports

open SaasTemplate.Isolation SaasTemplate.Isolation.Prog
open SaasTemplate.Privacy
open SaasTemplate.Storage (Bytes ArchiveFile StorageObjectState StoragePublicationReservation)
open SaasTemplate.Storage.Local (StorageCall Outcome)

variable {α β : Type} {φ ψ : List Fact}

/-- The program keeps to the automaton, and `Q` holds of its result and its last phase, unless
    it has seen the impossible. -/
def Learns (p : Tx α) (Q : Except AppError α → List Fact → Prop) (φ : List Fact) : Prop :=
  p.Follows knowledge (fun r ψ => .impossible ∈ ψ ∨ Q r ψ) φ

theorem learns_impossible (p : Tx α) {Q : Except AppError α → List Fact → Prop}
    (seen : .impossible ∈ φ) : Learns p Q φ := by
  induction p with
  | done r => exact .inl seen
  | call s k ih => exact fun r => ⟨φ, by simp [knowledge, seen], ih r⟩

theorem learns_pure {a : α} {Q : Except AppError α → List Fact → Prop} (h : Q (.ok a) φ) :
    Learns (pure a) Q φ := .inr h

theorem learns_raise {e : AppError} {Q : Except AppError α → List Fact → Prop}
    (h : Q (.error e) φ) : Learns (raise e) Q φ := .inr h

theorem learns_issue {s : Statement} {Q : Except AppError (Answer s) → List Fact → Prop}
    (h : ∀ r, ∃ ψ, knowing φ s r = some ψ ∧ (.impossible ∈ ψ ∨ Q r ψ)) : Learns (issue s) Q φ := by
  by_cases seen : .impossible ∈ φ
  · exact learns_impossible _ seen
  · intro r
    simpa [knowledge, seen, Follows] using h r

/-- A statement that teaches nothing. -/
theorem learns_plain {s : Statement} {Q : Except AppError (Answer s) → List Fact → Prop}
    (plain : ∀ r, knowing φ s r = some φ) (h : ∀ r, Q r φ) : Learns (issue s) Q φ :=
  learns_issue fun r => ⟨φ, plain r, .inr (h r)⟩

theorem Learns.mono {p : Tx α} {Q Q' : Except AppError α → List Fact → Prop}
    (h : Learns p Q φ) (weaker : ∀ r ψ, Q r ψ → Q' r ψ) : Learns p Q' φ :=
  Follows.mono h fun r ψ ends => ends.imp_right (weaker r ψ)

theorem Learns.bind {p : Tx α} {f : α → Tx β} {Q : Except AppError α → List Fact → Prop}
    {Q' : Except AppError β → List Fact → Prop} (h : Learns p Q φ)
    (further : ∀ a ψ, Q (.ok a) ψ → Learns (f a) Q' ψ)
    (fails : ∀ e ψ, Q (.error e) ψ → Q' (.error e) ψ) : Learns (p >>= f) Q' φ := by
  refine Follows.bind h (fun a ψ ends => ?_) fun e ψ ends => ends.imp_right (fails e ψ)
  rcases ends with seen | ends
  · exact learns_impossible _ seen
  · exact further a ψ ends

/-- A program whose result is looked at. -/
theorem Learns.attempt {p : Tx α} {f : Except AppError α → Tx β}
    {Q : Except AppError α → List Fact → Prop} {Q' : Except AppError β → List Fact → Prop}
    (h : Learns p Q φ) (further : ∀ r ψ, Q r ψ → Learns (f r) Q' ψ) :
    Learns (p.attempt >>= f) Q' φ := by
  refine Follows.bind (Follows.attempt h) (fun r ψ ends => ?_) fun e ψ ends => by
    obtain ⟨a, is, -⟩ := ends
    cases is
  obtain ⟨a, is, ends⟩ := ends
  cases is
  rcases ends with seen | ends
  · exact learns_impossible _ seen
  · exact further r ψ ends

theorem learns_raiseIf {cond : Prop} [Decidable cond] {e : AppError}
    {Q : Except AppError Unit → List Fact → Prop} (passes : ¬cond → Q (.ok ()) φ)
    (fails : Q (.error e) φ) : Learns (raiseIf cond e) Q φ := by
  unfold raiseIf
  split
  · exact learns_raise fails
  · rename_i fine
    exact learns_pure (passes fine)

theorem learns_orRaise {value : Option α} {e : AppError}
    {Q : Except AppError α → List Fact → Prop} (passes : ∀ a, value = some a → Q (.ok a) φ)
    (fails : Q (.error e) φ) : Learns (orRaise value e) Q φ := by
  cases value with
  | none => exact learns_raise fails
  | some a => exact learns_pure (passes a rfl)

/-- `try ... except`. -/
theorem Learns.handle {p : Tx α} {h : AppError → Tx α} {Q Q' : Except AppError α → List Fact → Prop}
    (first : Learns p Q φ) (fine : ∀ a ψ, Q (.ok a) ψ → Q' (.ok a) ψ)
    (caught : ∀ e ψ, Q (.error e) ψ → Learns (h e) Q' ψ) : Learns (p.handle h) Q' φ := by
  refine Learns.attempt first fun r ψ ends => ?_
  cases r with
  | ok a => exact learns_pure (fine a ψ ends)
  | error e => exact caught e ψ ends

/-- Facts that last are still known at the end. -/
theorem Learns.keepingAll {p : Tx α} {Q : Except AppError α → List Fact → Prop} {F : Fact → Prop}
    (h : Learns p Q φ) (lasts : ∀ f, F f → f.lasts = true) (known : ∀ f, F f → f ∈ φ) :
    Learns p (fun r ψ => Q r ψ ∧ ∀ f, F f → f ∈ ψ) φ := by
  induction p generalizing φ with
  | done r => exact h.imp_right fun ends => ⟨ends, known⟩
  | call s k ih =>
      intro r
      obtain ⟨ψ, next, rest⟩ := h r
      refine ⟨ψ, next, ih r rest fun f mine => ?_⟩
      unfold knowledge at next
      split at next
      · cases next
        exact known f mine
      · exact knowing_lasts next (lasts f mine) (known f mine)

theorem Learns.keeping {p : Tx α} {Q : Except AppError α → List Fact → Prop} {f : Fact}
    (h : Learns p Q φ) (lasts : f.lasts = true) (known : f ∈ φ) :
    Learns p (fun r ψ => Q r ψ ∧ f ∈ ψ) φ :=
  (h.keepingAll (F := (· = f)) (by rintro _ rfl; exact lasts) (by rintro _ rfl; exact known)).mono
    fun _ _ ends => ⟨ends.1, ends.2 f rfl⟩

theorem Learns.forEach {xs : List β} {f : β → Tx Unit} {I : List Fact → Prop}
    (round : ∀ x ∈ xs, ∀ ψ, I ψ → Learns (f x) (fun _ => I) ψ) (start : I φ) :
    Learns (forEach xs f) (fun _ => I) φ := by
  induction xs generalizing φ with
  | nil => exact learns_pure start
  | cons x rest ih =>
      refine Learns.bind (round x List.mem_cons_self φ start) (fun _ ψ held => ?_)
        fun _ _ held => held
      exact ih (fun y member => round y (List.mem_cons_of_mem _ member)) held

/-! ## Storage -/

theorem learns_reserve {backend : StorageBackend} {prepared : PreparedExportArchive}
    {ownerToken : String} (known : .prepared prepared ownerToken ∈ φ) :
    Learns (reserve backend prepared.storageKey ownerToken)
      (fun r _ => ∀ reservation, r = .ok reservation → reservation.ownerToken = ownerToken) φ := by
  have mine : φ.any (isPreparedFor prepared.storageKey ownerToken) = true :=
    List.any_eq_true.mpr ⟨_, known, by simp [isPreparedFor]⟩
  refine Learns.bind (Q := fun r _ => ∀ reservation, r = .ok (.reserved reservation) →
    reservation.ownerToken = ownerToken) (learns_issue fun r => ?_)
    (fun outcome ψ told => ?_) fun _ _ _ => by rintro _ ⟨⟩
  · simp only [knowing, afterStorage, mine, if_true]
    rcases r with e | reservation | state | _
    · exact ⟨_, rfl, .inr (by rintro _ ⟨⟩)⟩
    · by_cases same : reservation.key = prepared.storageKey ∧ reservation.ownerToken = ownerToken
      · exact ⟨_, by simp only [if_pos same]; rfl, .inr (by rintro _ ⟨⟩; exact same.2)⟩
      · exact ⟨_, by simp only [if_neg same]; rfl, .inl List.mem_cons_self⟩
    · exact ⟨_, rfl, .inr (by rintro _ ⟨⟩)⟩
    · exact ⟨_, rfl, .inr (by rintro _ ⟨⟩)⟩
  · cases outcome <;> first
      | exact learns_raise (by rintro _ ⟨⟩)
      | exact learns_pure fun reservation is => told reservation (by cases is; rfl)

theorem mem_preparedAt {prepared : PreparedExportArchive} {token : String}
    (known : .prepared prepared token ∈ φ) :
    (prepared, token) ∈ φ.filterMap (preparedAt prepared.storageBackend prepared.storageKey
      prepared.metadata.checksumSha256 prepared.metadata.sizeBytes) :=
  List.mem_filterMap.mpr ⟨_, known, by simp [preparedAt]⟩

/-- An inspection that finds the archive tells that it is stored. -/
theorem learns_inspect {prepared : PreparedExportArchive} {token : String}
    (known : .prepared prepared token ∈ φ) :
    Learns (objectState prepared.storageBackend (.inspect prepared.storageKey
        prepared.metadata.checksumSha256 prepared.metadata.sizeBytes))
      (fun r ψ => r = .ok .matching → .stored prepared token ∈ ψ) φ := by
  refine Learns.bind (Q := fun r ψ => r = .ok (.state .matching) → .stored prepared token ∈ ψ)
    (learns_issue fun r => ?_) (fun outcome ψ stored => ?_) fun _ _ _ => nofun
  · have mine := List.mem_map_of_mem (f := Fact.storedOf) (mem_preparedAt known)
    rcases r with e | reservation | _ | _ <;> first
      | exact ⟨φ, rfl, .inr nofun⟩
      | rename_i state
        cases state <;> first
          | exact ⟨φ, rfl, .inr nofun⟩
          | exact ⟨_, rfl, .inr fun _ => List.mem_append_left _ mine⟩
  · cases outcome <;> first
      | exact learns_raise nofun
      | exact learns_pure fun is => stored (by cases is; rfl)

/-- A deletion of what does not match tells that the archive is stored, or that nothing is. -/
theorem learns_deleteIfNotMatching {prepared : PreparedExportArchive} {token : String}
    (known : .prepared prepared token ∈ φ) :
    Learns (objectState prepared.storageBackend (.deleteIfNotMatching prepared.storageKey
        prepared.metadata.checksumSha256 prepared.metadata.sizeBytes))
      (fun r ψ => ∀ state, r = .ok state → if state = .matching then .stored prepared token ∈ ψ
        else .cleaned prepared token ∈ ψ) φ := by
  have here := mem_preparedAt known
  have some_ := List.ne_nil_of_mem here
  refine Learns.bind (Q := fun r ψ => ∀ state, r = .ok (.state state) →
      if state = .matching then .stored prepared token ∈ ψ else .cleaned prepared token ∈ ψ)
    (learns_issue fun r => ?_) (fun outcome ψ told => ?_) fun _ _ _ => by rintro _ ⟨⟩
  · simp only [knowing, afterStorage, if_neg some_]
    rcases r with e | reservation | state | _
    · exact ⟨φ, rfl, .inr (by rintro _ ⟨⟩)⟩
    · exact ⟨_, rfl, .inr (by rintro _ ⟨⟩)⟩
    · cases state <;> refine ⟨_, rfl, .inr ?_⟩ <;> rintro state ⟨⟩ <;>
        exact List.mem_append_left _ (List.mem_map_of_mem here)
    · exact ⟨_, rfl, .inr (by rintro _ ⟨⟩)⟩
  · cases outcome <;> first
      | exact learns_raise (by rintro _ ⟨⟩)
      | exact learns_pure fun state is => told state (by cases is; rfl)

theorem learns_deleteObject {backend : StorageBackend} {key : String}
    (known : .retired backend key ∈ φ) :
    Learns (deleteObject backend key)
      (fun r ψ => .retired backend key ∈ ψ ∧ (r = .ok () → .emptied backend key ∈ ψ)) φ := by
  refine Learns.bind (Q := fun r ψ => .retired backend key ∈ ψ ∧
      ((∃ outcome, r = .ok outcome) → .emptied backend key ∈ ψ))
    (learns_issue fun r => ?_) (fun outcome ψ told => learns_pure ⟨told.1, fun _ =>
      told.2 ⟨outcome, rfl⟩⟩) fun e ψ told => ⟨told.1, by rintro ⟨⟩⟩
  simp only [knowing, afterStorage, if_pos known]
  cases r with
  | error e => exact ⟨φ, rfl, .inr ⟨known, by rintro ⟨_, ⟨⟩⟩⟩⟩
  | ok outcome =>
      exact ⟨_, rfl, .inr ⟨List.mem_cons_of_mem _ known, fun _ => List.mem_cons_self⟩⟩

/-! ## Preparing an archive -/

theorem preparedFrom_id {id : Uuid} {a : ExportArtifact} {prepared : PreparedExportArchive}
    (is : preparedFromCommittedUploadIntent id a = .ok prepared) : prepared.artifactId = id := by
  unfold preparedFromCommittedUploadIntent at is
  split at is <;> cases is
  rfl

/-- What a client knows of an archive it has prepared. -/
structure Prepares (lease : ProcessingExportLease) (intentless : Prop)
    (written : WrittenExportArchive) (φ : List Fact) : Prop where
  prepared : .prepared written.prepared lease.processingToken ∈ φ
  id : written.prepared.artifactId = lease.artifactId
  size : ∀ body, written.archive = some body →
    written.prepared.metadata.sizeBytes = body.length
  archive : intentless → written.archive.isSome = true

section Prepare

variable {settings : ExportSettings} {sha256 : Bytes → String} {lease : ProcessingExportLease}

theorem learns_comparedIntent {intent : ExportArtifact} {candidate : String}
    {metadata : ExportArtifact.Metadata} {body : Bytes} {owned : Prop}
    (size : metadata.sizeBytes = body.length)
    (told : φ = intended ψ lease.artifactId lease.processingToken metadata
      (candidate, some intent)) :
    Learns (comparedIntent lease.artifactId intent candidate metadata body)
      (fun r χ => ∀ written, r = .ok written → Prepares lease owned written χ) φ := by
  unfold comparedIntent
  cases committed : preparedFromCommittedUploadIntent lease.artifactId intent with
  | error e => exact learns_raise nofun
  | ok prepared =>
      simp only [intended, committed] at told
      by_cases same : prepared.storageKey = candidate ∧ prepared.metadata = metadata
      · rw [if_pos same] at told
        dsimp only
        rw [if_neg (by simp [same])]
        refine learns_pure ?_
        rintro written ⟨⟩
        refine ⟨told ▸ List.mem_cons_self, preparedFrom_id committed, ?_, fun _ => rfl⟩
        rintro _ ⟨⟩
        rw [same.2, size]
      · rw [if_neg same] at told
        exact learns_impossible _ (told ▸ List.mem_cons_self)

theorem learns_writeAndIntend {owned : Prop}
    (intentless : .intentless lease.artifactId lease.processingToken ∈ φ) :
    Learns (writeAndIntend settings sha256 lease)
      (fun r ψ => ∀ written, r = .ok written → Prepares lease owned written ψ) φ := by
  unfold writeAndIntend
  refine Learns.bind (Q := fun _ ψ => φ = ψ) (learns_plain (fun _ => rfl) fun _ => rfl) ?_
    fun _ _ _ _ is => by cases is
  rintro body _ rfl
  refine Learns.bind (Q := fun _ ψ => φ = ψ) (learns_raiseIf (fun _ => rfl) rfl) ?_
    fun _ _ _ _ is => by cases is
  rintro _ _ rfl
  refine Learns.bind (Q := fun r ψ => ∀ answer, r = .ok answer → ψ =
    intended (φ.filter (· ≠ .intentless lease.artifactId lease.processingToken)) lease.artifactId
      lease.processingToken (archiveMetadata sha256 lease.artifactId body) answer)
    (learns_issue fun r => ?_) ?_
    fun _ _ _ _ is => by cases is
  · simp only [knowing, if_pos intentless]
    cases r with
    | error e => exact ⟨_, rfl, .inr fun _ is => by cases is⟩
    | ok answer => exact ⟨_, rfl, .inr (by rintro _ ⟨⟩; rfl)⟩
  rintro ⟨candidate, answer⟩ ψ told
  refine Learns.bind (Q := fun r χ => ψ = χ ∧ ∀ a, r = .ok a → answer = some a)
    (learns_orRaise (fun a is => ⟨rfl, by rintro _ ⟨⟩; exact is⟩) ⟨rfl, fun _ is => by cases is⟩) ?_
    fun _ _ _ _ is => by cases is
  rintro intent _ ⟨rfl, is⟩
  obtain rfl := is intent rfl
  exact learns_comparedIntent rfl (told _ rfl)

theorem learns_prepareFound {a : ExportArtifact} {χ : List Fact}
    (owned : owns χ lease.processingToken = true)
    (told : φ = found χ lease.artifactId lease.processingToken a) :
    Learns (prepareFound settings sha256 lease a) (fun r ψ => ∀ written, r = .ok written →
      Prepares lease (.intentless lease.artifactId lease.processingToken ∈ χ) written ψ) φ := by
  unfold prepareFound
  refine Learns.bind (Q := fun _ ψ => φ = ψ) (learns_plain (fun _ => rfl) fun _ => rfl) ?_
    fun _ _ _ _ is => by cases is
  rintro request _ rfl
  refine Learns.bind (Q := fun _ ψ => φ = ψ) (learns_orRaise (fun _ _ => rfl) rfl) ?_
    fun _ _ _ _ is => by cases is
  rintro request _ rfl
  refine Learns.bind (Q := fun _ ψ => φ = ψ) (learns_raiseIf (fun _ => rfl) rfl) ?_
    fun _ _ _ _ is => by cases is
  rintro _ _ rfl
  simp only [found, owned, Bool.true_eq_false, if_false] at told
  by_cases keyed : a.storageKey.isSome = true
  · rw [if_pos keyed]
    rw [if_neg (by simpa [Option.isSome_iff_ne_none] using keyed)] at told
    split at told
    · exact learns_impossible _ (told ▸ List.mem_cons_self)
    · rename_i other
      cases committed : preparedFromCommittedUploadIntent lease.artifactId a with
      | error e => exact learns_raise nofun
      | ok prepared =>
          simp only [committed] at told
          refine learns_pure ?_
          rintro written ⟨⟩
          exact ⟨told ▸ List.mem_cons_self, preparedFrom_id committed, nofun,
            fun known => absurd known other⟩
  · rw [if_neg keyed]
    rw [if_pos (by simpa using keyed)] at told
    exact learns_writeAndIntend (told ▸ List.mem_cons_self)

theorem learns_prepare (owned : owns φ lease.processingToken = true) :
    Learns (prepareExportArchive settings sha256 lease) (fun r ψ => ∀ written, r = .ok written →
      Prepares lease (.intentless lease.artifactId lease.processingToken ∈ φ) written ψ) φ := by
  unfold prepareExportArchive
  refine Learns.bind (Q := fun _ ψ => φ = ψ) (learns_raiseIf (fun _ => rfl) rfl) ?_
    fun _ _ _ _ is => by cases is
  rintro _ _ rfl
  refine Learns.bind (Q := fun r ψ => ∀ a, r = .ok (some a) →
    ψ = found φ lease.artifactId lease.processingToken a) (learns_issue fun r => ?_) ?_
    fun _ _ _ _ is => by cases is
  · rcases r with e | _ | a
    · exact ⟨φ, rfl, .inr fun _ is => by cases is⟩
    · exact ⟨φ, rfl, .inr fun _ is => by cases is⟩
    · exact ⟨_, rfl, .inr (by rintro a ⟨⟩; rfl)⟩
  intro answer ψ told
  refine Learns.bind (Q := fun r χ => ψ = χ ∧ ∀ a, r = .ok a → answer = some a)
    (learns_orRaise (fun a is => ⟨rfl, by rintro a ⟨⟩; exact is⟩) ⟨rfl, fun _ is => by cases is⟩) ?_
    fun _ _ _ _ is => by cases is
  rintro a _ ⟨rfl, is⟩
  obtain rfl := is a rfl
  exact learns_prepareFound owned (told a rfl)

end Prepare

/-! ## Writing, recovering, reporting -/

section Worker

variable {settings : ExportSettings} {sha256 : Bytes → String} {lease : ProcessingExportLease}
  {prepared : PreparedExportArchive}

theorem learns_validate (known : .prepared prepared lease.processingToken ∈ φ) :
    Learns (issue (.validateUpload prepared lease.processingToken)) (fun r ψ =>
      .prepared prepared lease.processingToken ∈ ψ ∧
        ((∃ u, r = .ok u) → .validated prepared lease.processingToken ∈ ψ)) φ := by
  refine learns_issue fun r => ?_
  simp only [knowing, if_pos known]
  cases r with
  | error e => exact ⟨φ, rfl, .inr ⟨known, by rintro ⟨_, ⟨⟩⟩⟩⟩
  | ok u =>
      refine ⟨_, rfl, .inr ⟨List.mem_cons_of_mem _ ?_, fun _ => List.mem_cons_self⟩⟩
      exact List.mem_filter.mpr ⟨known, rfl⟩

theorem learns_write {body : Bytes} (known : .prepared prepared lease.processingToken ∈ φ)
    (size : prepared.metadata.sizeBytes = body.length) :
    Learns (writeExportArchive lease prepared body)
      (fun r ψ => r = .ok () → .stored prepared lease.processingToken ∈ ψ) φ := by
  have cancels : ∀ (reservation : StoragePublicationReservation) (e : AppError) (ψ : List Fact),
      Learns (do
        let _ ← issue (.storage prepared.storageBackend (.cancel reservation))
        (raise e : Tx Unit))
        (fun r ψ => r = .ok () → .stored prepared lease.processingToken ∈ ψ) ψ :=
    fun reservation e ψ => Learns.bind (Q := fun _ _ => True)
      (learns_plain (fun _ => rfl) fun _ => trivial) (fun _ _ _ => learns_raise (by rintro ⟨⟩))
      fun _ _ _ => by rintro ⟨⟩
  unfold writeExportArchive
  refine Learns.bind ((learns_reserve known).keeping rfl known) ?_ fun _ _ _ => by rintro ⟨⟩
  rintro reservation ψ ⟨told, known⟩
  have mine := told reservation rfl
  refine Learns.attempt (learns_validate known) fun r ψ ⟨known, told⟩ => ?_
  cases r with
  | error e => exact cancels reservation e ψ
  | ok u =>
      have validated := told ⟨u, rfl⟩
      dsimp only
      split
      · exact cancels reservation _ ψ
      · rename_i same
        have same := not_ne_iff.mp same
        refine Learns.attempt (Q := fun r χ => (∃ o, r = .ok o) →
          .stored prepared lease.processingToken ∈ χ) (learns_issue fun r => ?_)
          fun r χ told => ?_
        · have here : (prepared, lease.processingToken) ∈ ψ.filterMap
              (validatedAt prepared.storageBackend reservation ⟨body,
                prepared.metadata.contentType, prepared.metadata.checksumSha256⟩) :=
            List.mem_filterMap.mpr ⟨_, validated, by simp [validatedAt, same, mine, size]⟩
          simp only [knowing, afterStorage, if_neg (List.ne_nil_of_mem here)]
          cases r with
          | error e => exact ⟨ψ, rfl, .inr (by rintro ⟨_, ⟨⟩⟩)⟩
          | ok o => exact ⟨_, rfl, .inr fun _ => List.mem_append_left _ (List.mem_map_of_mem here)⟩
        · cases r with
          | ok o => exact learns_pure fun _ => told ⟨o, rfl⟩
          | error e =>
              dsimp only
              split
              · exact learns_raise (by rintro ⟨⟩)
              · exact cancels reservation e χ

theorem learns_recover (known : .prepared prepared lease.processingToken ∈ φ) :
    Learns (recoverCommittedExportArchive prepared)
      (fun r ψ => r = .ok true → .stored prepared lease.processingToken ∈ ψ) φ := by
  refine Learns.bind (learns_inspect known) (fun state ψ told => learns_pure fun is => told ?_)
    fun _ _ _ is => by cases is
  simpa using is

/-- A reset tells that the archive is stored after all, or that the artifact has no key. -/
theorem learns_reset (known : .prepared prepared lease.processingToken ∈ φ) :
    Learns (resetCommittedExportUploadIntent lease prepared) (fun r ψ =>
      (r = .ok false → .stored prepared lease.processingToken ∈ ψ) ∧
        (r = .ok true → .intentless prepared.artifactId lease.processingToken ∈ ψ)) φ := by
  refine Learns.bind (learns_validate known) (fun _ ψ told => ?_) fun _ _ _ =>
    ⟨by rintro ⟨⟩, by rintro ⟨⟩⟩
  refine Learns.bind (learns_deleteIfNotMatching told.1) (fun state χ told => ?_) fun _ _ _ =>
    ⟨by rintro ⟨⟩, by rintro ⟨⟩⟩
  replace told := told state rfl
  split
  · rename_i matching
    rw [if_pos matching] at told
    exact learns_pure ⟨fun _ => told, by rintro ⟨⟩⟩
  · rename_i other
    rw [if_neg other] at told
    refine Learns.bind (Q := fun r χ => r = .ok true →
      .intentless prepared.artifactId lease.processingToken ∈ χ) (learns_issue fun r => ?_)
      (fun reset ω told => ?_) fun _ _ _ => ⟨by rintro ⟨⟩, by rintro ⟨⟩⟩
    · simp only [knowing, if_pos told]
      rcases r with e | _ | _
      · exact ⟨χ, rfl, .inr fun is => by cases is⟩
      · exact ⟨χ, rfl, .inr fun is => by cases is⟩
      · exact ⟨_, rfl, .inr fun _ => List.mem_cons_self⟩
    · refine Learns.bind (Q := fun r υ => υ = ω ∧ (r = .ok () → reset = true))
        (learns_raiseIf (fun fine => ⟨rfl, fun _ => by simpa using fine⟩) ⟨rfl, by rintro ⟨⟩⟩)
        ?_ fun _ _ _ => ⟨by rintro ⟨⟩, by rintro ⟨⟩⟩
      rintro u _ ⟨rfl, fine⟩
      obtain rfl := fine rfl
      exact learns_pure ⟨by rintro ⟨⟩, fun _ => told rfl⟩

/-- What is written and then reported is prepared, and stored if there is nothing to write. -/
theorem learns_recoverOrPrepare {first : WrittenExportArchive} {owned : Prop}
    (leased : .leased lease.artifactId lease.processingToken ∈ φ)
    (prepares : Prepares lease owned first φ) :
    Learns (recoverOrPrepare settings sha256 lease first) (fun r ψ => ∀ written, r = .ok written →
      Prepares lease True written ψ ∨
        written.archive = none ∧ .stored written.prepared lease.processingToken ∈ ψ) φ := by
  unfold recoverOrPrepare
  split
  · rename_i some_
    refine learns_pure ?_
    rintro written ⟨⟩
    exact .inl { prepares with archive := fun _ => some_ }
  · rename_i none_
    replace none_ : first.archive = none := by simpa using none_
    refine Learns.bind (((learns_recover prepares.prepared).keeping rfl prepares.prepared).keeping
      rfl leased) ?_ fun _ _ _ _ is => by cases is
    rintro recovered ψ ⟨⟨told, known⟩, leased⟩
    split
    · rename_i matching
      subst matching
      refine learns_pure ?_
      rintro written ⟨⟩
      exact .inr ⟨none_, told rfl⟩
    · refine Learns.bind ((learns_reset known).keeping rfl leased) ?_ fun _ _ _ _ is => by cases is
      rintro reset χ ⟨⟨told, intentless⟩, leased⟩
      split
      · rename_i is
        subst is
        refine (learns_prepare (owns_of_mem leased rfl)).mono fun r ω told written is => .inl ?_
        refine { told written is with archive := fun _ => (told written is).archive ?_ }
        exact prepares.id ▸ intentless rfl
      · rename_i is
        rw [Bool.not_eq_true] at is
        subst is
        refine learns_pure ?_
        rintro written ⟨⟩
        exact .inr ⟨none_, told rfl⟩

theorem learns_generate (leased : .leased lease.artifactId lease.processingToken ∈ φ) :
    Learns (generateArtifact settings sha256 lease) (fun _ _ => True) φ := by
  refine Learns.bind ((learns_prepare (owns_of_mem leased rfl)).keeping rfl leased) ?_
    fun _ _ _ => trivial
  rintro first ψ ⟨prepares, leased⟩
  refine Learns.bind (learns_recoverOrPrepare leased (prepares first rfl))
    (fun written χ told => ?_) fun _ _ _ => trivial
  refine Learns.bind (Q := fun r ω => r = .ok () →
    .stored written.prepared lease.processingToken ∈ ω) ?_ (fun u ω told => ?_) fun _ _ _ => trivial
  · rcases told written rfl with prepares | ⟨none_, stored⟩
    · obtain ⟨body, is⟩ := Option.isSome_iff_exists.mp (prepares.archive trivial)
      simp only [writeIfPrepared, is]
      exact learns_write prepares.prepared (prepares.size body is)
    · simp only [writeIfPrepared, none_]
      exact learns_pure fun _ => stored
  · have stored := told rfl
    exact learns_issue fun r => ⟨ω, by simp only [knowing, if_pos stored], .inr trivial⟩

theorem learns_cleanup {cleanup : FailedExportStorageCleanup}
    (known : .retired cleanup.storageBackend cleanup.storageKey ∈ φ) :
    Learns (cleanupFailedExportStorage cleanup) (fun _ _ => True) φ := by
  refine Learns.attempt (learns_deleteObject known) fun r ψ told => ?_
  cases r with
  | error e => exact learns_pure trivial
  | ok u =>
      have emptied := told.2 rfl
      refine Learns.attempt (Q := fun _ _ => True) (learns_issue fun r => ⟨ψ, ?_, .inr trivial⟩)
        fun _ _ _ => learns_pure trivial
      simp only [knowing, if_pos emptied]

theorem learns_process {str : AppError → String}
    (leased : .leased lease.artifactId lease.processingToken ∈ φ) :
    Learns (processArtifact settings sha256 str lease) (fun _ _ => True) φ := by
  refine Learns.handle (learns_generate leased) (fun _ _ _ => trivial) fun e ψ _ => ?_
  split
  · exact learns_pure trivial
  · refine Learns.bind (Q := fun r ψ => ∀ cleanup, r = .ok (some cleanup) →
      .retired cleanup.storageBackend cleanup.storageKey ∈ ψ) (learns_issue fun r => ?_)
      (fun cleanup ψ told => ?_) fun _ _ _ => trivial
    · rcases r with e | _ | cleanup
      · exact ⟨ψ, rfl, .inr fun _ is => by cases is⟩
      · exact ⟨ψ, rfl, .inr fun _ is => by cases is⟩
      · exact ⟨_, rfl, .inr (by rintro _ ⟨⟩; exact List.mem_cons_self)⟩
    · cases cleanup with
      | none => exact learns_pure trivial
      | some cleanup => exact learns_cleanup (told cleanup rfl)

theorem learns_rounds {str : AppError → String} {batchSize : Nat} {once polls : Bool}
    (rounds : Nat) :
    Learns (workerRounds settings sha256 str batchSize once polls rounds) (fun _ _ => True) φ := by
  induction rounds generalizing φ with
  | zero => exact learns_pure trivial
  | succ rounds ih =>
      refine Learns.bind (Q := fun r ψ => ∀ leases, r = .ok leases →
        ∀ lease ∈ leases, .ofLease lease ∈ ψ) ?_ (fun leases ψ told => ?_) fun _ _ _ => trivial
      · unfold claimLeases
        split
        · exact learns_pure (by rintro _ ⟨⟩; nofun)
        · refine learns_issue fun r => ?_
          cases r with
          | error e => exact ⟨φ, rfl, .inr fun _ is => by cases is⟩
          | ok leases =>
              refine ⟨_, rfl, .inr ?_⟩
              rintro _ ⟨⟩ lease member
              exact List.mem_append_left _ (List.mem_map_of_mem member)
      · have keeps : Learns (forEach leases (processArtifact settings sha256 str))
            (fun _ ψ => ∀ f, (∃ lease ∈ leases, f = .ofLease lease) → f ∈ ψ) ψ := by
          refine Learns.forEach (fun lease member χ known => ?_) ?_
          · have mine := known _ ⟨lease, member, rfl⟩
            refine ((learns_process mine).keepingAll ?_ known).mono fun _ _ ends => ends.2
            rintro _ ⟨_, -, rfl⟩
            rfl
          · rintro _ ⟨lease, member, rfl⟩
            exact told leases rfl lease member
        refine Learns.bind keeps (fun _ χ _ => ?_) fun _ _ _ => trivial
        split
        · exact learns_pure trivial
        · exact Learns.bind ih (fun _ _ _ => learns_pure trivial) fun _ _ _ => trivial

end Worker

/-! ## The other clients -/

section Others

variable {settings : ExportSettings} {sha256 : Bytes → String}

/-- A statement that asks for nothing. -/
theorem learns_free {s : Statement} (free : ∀ φ r, ∃ ψ, knowing φ s r = some ψ) :
    Learns (issue s) (fun _ _ => True) φ :=
  learns_issue fun r => (free φ r).imp fun _ next => ⟨next, .inr trivial⟩

theorem learns_heartbeat {lease : ProcessingExportLease} (beats : Nat) :
    Learns (heartbeatProcessingLease lease beats) (fun _ _ => True) φ := by
  induction beats generalizing φ with
  | zero => exact learns_pure trivial
  | succ beats ih =>
      refine Learns.bind (learns_free fun φ r => ?_) (fun loaded ψ _ => ?_) fun _ _ _ => trivial
      · rcases r with e | _ | a <;> exact ⟨_, rfl⟩
      · cases loaded with
        | none => exact learns_pure trivial
        | some loaded =>
            refine Learns.bind (learns_free fun φ r => ⟨φ, rfl⟩) (fun _ _ _ => ?_)
              fun _ _ _ => trivial
            exact Learns.bind (learns_free fun φ r => ⟨φ, rfl⟩) (fun _ _ _ => ih)
              fun _ _ _ => trivial

theorem isNew_queuedArtifact {requestId requestedByUserId : Uuid} {request : DataSubjectRequest}
    {createdAt queuedAt : Time} :
    IsNew (queuedArtifact settings requestId requestedByUserId request createdAt queuedAt) :=
  ⟨rfl, rfl, rfl⟩

theorem learns_request {newId requestId requestedByUserId : Uuid} :
    Learns (requestExportArtifact settings newId requestId requestedByUserId)
      (fun _ _ => True) φ := by
  refine Learns.bind (Q := fun _ _ => True) (learns_raiseIf (fun _ => trivial) trivial) ?_
    fun _ _ _ => trivial
  refine fun _ _ _ => Learns.bind (learns_free fun φ r => ⟨φ, rfl⟩) ?_ fun _ _ _ => trivial
  refine fun _ _ _ => Learns.bind (Q := fun _ _ => True)
    (learns_orRaise (fun _ _ => trivial) trivial) ?_ fun _ _ _ => trivial
  refine fun request _ _ => Learns.bind (Q := fun _ _ => True)
    (learns_raiseIf (fun _ => trivial) trivial) ?_ fun _ _ _ => trivial
  refine fun _ _ _ => Learns.bind (learns_free fun φ r => ⟨φ, rfl⟩) ?_ fun _ _ _ => trivial
  exact fun queuedAt ψ _ => learns_issue fun r =>
    ⟨ψ, by simp only [knowing, if_pos isNew_queuedArtifact], .inr trivial⟩

/-- The objects of the purges that are answered with are gone. -/
theorem learns_deletePurges {purges : List ExportArtifactStoragePurge}
    (known : ∀ purge ∈ purges, .ofPurge purge ∈ φ) :
    Learns (deleteExportStoragePurges settings purges)
      (fun r ψ => ∀ out, r = .ok out → allEmptied ψ out.1 = true) φ := by
  induction purges generalizing φ with
  | nil => exact learns_pure (by rintro _ ⟨⟩; rfl)
  | cons purge rest ih =>
      have first := known purge List.mem_cons_self
      have others : ∀ f, (∃ other ∈ rest, f = .ofPurge other) → f ∈ φ := by
        rintro _ ⟨other, member, rfl⟩
        exact known other (List.mem_cons_of_mem _ member)
      cases placed : purge.storageBackend with
      | none =>
          simp only [Fact.ofPurge, placed] at first
          exact learns_impossible _ first
      | some backend =>
          simp only [Fact.ofPurge, placed] at first
          simp only [deleteExportStoragePurges, placed, Option.getD_some]
          refine Learns.attempt ((learns_deleteObject first).keepingAll ?_ others)
            fun answer ψ told => ?_
          · rintro _ ⟨other, -, rfl⟩
            unfold Fact.ofPurge
            split <;> rfl
          · obtain ⟨⟨-, emptied⟩, others⟩ := told
            have later := ih fun other member => others _ ⟨other, member, rfl⟩
            cases answer with
            | error e =>
                refine Learns.bind later (fun out χ told => learns_pure ?_) fun _ _ _ _ is => by
                  cases is
                rintro _ ⟨⟩
                exact told out rfl
            | ok u =>
                refine Learns.bind (later.keeping rfl (emptied rfl))
                  (fun out χ told => learns_pure ?_) fun _ _ _ _ is => by cases is
                rintro _ ⟨⟩
                refine allEmptied_iff.mpr (List.forall_mem_cons.mpr ⟨⟨backend, placed, told.2⟩, ?_⟩)
                exact allEmptied_iff.mp (told.1 out rfl)

/-- What a pass lists, it knows to be retired. -/
theorem learns_list {s : Statement} (purges : Answer s → List ExportArtifactStoragePurge)
    (lists : ∀ r, ∃ ψ, knowing φ s r = some ψ ∧
      ∀ a, r = .ok a → ψ = (purges a).map .ofPurge ++ φ) :
    Learns (issue s) (fun r ψ => ∀ a, r = .ok a → ∀ purge ∈ purges a, .ofPurge purge ∈ ψ) φ :=
  learns_issue fun r => (lists r).imp fun _ ⟨next, is⟩ => ⟨next, .inr fun a ok _ member =>
    is a ok ▸ List.mem_append_left _ (List.mem_map_of_mem member)⟩

theorem learns_retention {now : Time} {limit nonExport : Nat} :
    Learns (exportRetentionPass settings now limit nonExport) (fun _ _ => True) φ := by
  refine Learns.bind (Q := fun _ _ => True) (learns_raiseIf (fun _ => trivial) trivial) ?_
    fun _ _ _ => trivial
  refine fun _ ψ _ => Learns.bind (learns_list id fun r => ?_) ?_ fun _ _ _ => trivial
  · cases r with
    | error e => exact ⟨ψ, rfl, fun _ is => by cases is⟩
    | ok purges => exact ⟨_, rfl, by rintro _ ⟨⟩; rfl⟩
  refine fun cancelled ψ told => Learns.bind (learns_deletePurges (told cancelled rfl)) ?_
    fun _ _ _ => trivial
  rintro ⟨deleted, failures⟩ ψ emptied
  replace emptied := emptied _ rfl
  refine Learns.bind (learns_list Prod.snd fun r => ?_) ?_ fun _ _ _ => trivial
  · cases r with
    | error e => exact ⟨ψ, by simp only [knowing, if_pos emptied], fun _ is => by cases is⟩
    | ok out => exact ⟨_, by simp only [knowing, if_pos emptied]; rfl, by rintro _ ⟨⟩; rfl⟩
  rintro ⟨processed, failed⟩ ψ told
  refine Learns.bind (learns_deletePurges (told _ rfl)) ?_ fun _ _ _ => trivial
  rintro ⟨deleted, moreFailures⟩ ψ emptied
  replace emptied := emptied _ rfl
  refine Learns.bind (Q := fun _ χ => ψ = χ) (learns_plain (fun _ => rfl) fun _ => rfl) ?_
    fun _ _ _ => trivial
  rintro ready _ rfl
  refine Learns.bind (learns_list Prod.snd fun r => ?_) ?_ fun _ _ _ => trivial
  · cases r with
    | error e => exact ⟨ψ, by simp only [knowing, if_pos emptied], fun _ is => by cases is⟩
    | ok out => exact ⟨_, by simp only [knowing, if_pos emptied]; rfl, by rintro _ ⟨⟩; rfl⟩
  rintro ⟨processed, expired⟩ ψ told
  refine Learns.bind (learns_deletePurges (told _ rfl)) ?_ fun _ _ _ => trivial
  rintro ⟨deleted, lastFailures⟩ ψ emptied
  replace emptied := emptied _ rfl
  refine Learns.bind (Q := fun _ _ => True) (learns_issue fun r =>
    ⟨ψ, by simp only [knowing, if_pos emptied], .inr trivial⟩) (fun cleared ψ _ => ?_)
    fun _ _ _ => trivial
  split
  · exact learns_pure trivial
  · split
    · exact learns_raise trivial
    · exact learns_pure trivial

theorem learns_erasure {subject : Uuid} :
    Learns (eraseSubjectExports subject) (fun _ _ => True) φ := by
  refine Learns.bind (Q := fun r ψ => ∀ deletions, r = .ok deletions →
    ∀ deletion ∈ deletions, .ofDeletion deletion ∈ ψ) (learns_issue fun r => ?_)
    (fun deletions ψ told => ?_) fun _ _ _ => trivial
  · cases r with
    | error e => exact ⟨φ, rfl, .inr fun _ is => by cases is⟩
    | ok deletions =>
        refine ⟨_, rfl, .inr ?_⟩
        rintro _ ⟨⟩ deletion member
        exact List.mem_append_left _ (List.mem_map_of_mem member)
  · refine (Learns.forEach (I := fun ψ => ∀ f, (∃ d ∈ deletions, f = .ofDeletion d) → f ∈ ψ)
      (fun deletion member χ known => ?_) ?_).mono fun _ _ _ => trivial
    · have attempted := (learns_deleteObject (known _ ⟨deletion, member, rfl⟩)).keepingAll
        (by rintro _ ⟨_, -, rfl⟩; rfl) known
      exact Learns.attempt attempted fun _ _ ends => learns_pure ends.2
    · rintro _ ⟨deletion, member, rfl⟩
      exact told deletions rfl deletion member

/-- Every operation of the pipeline keeps to the automaton. -/
theorem learns_program (op : PipelineOp) :
    Learns (op.program settings sha256) (fun _ _ => True) φ := by
  cases op with
  | request newId requestId requestedByUserId =>
      exact Learns.bind learns_request (fun _ _ _ => learns_pure trivial) fun _ _ _ => trivial
  | worker str batchSize rounds dryRun once polls =>
      refine Learns.bind (Q := fun _ _ => True) (learns_raiseIf (fun _ => trivial) trivial) ?_
        fun _ _ _ => trivial
      intro _ _ _
      split
      · split
        · exact learns_pure trivial
        · exact learns_free fun φ r => ⟨φ, rfl⟩
      · exact learns_rounds rounds
  | heartbeat lease beats =>
      exact Learns.bind (learns_heartbeat beats) (fun _ _ _ => learns_pure trivial)
        fun _ _ _ => trivial
  | retention now limit nonExport => exact learns_retention
  | erasure subject =>
      exact Learns.bind learns_erasure (fun _ _ _ => learns_pure trivial) fun _ _ _ => trivial

end Others

end SaasTemplate.Exports
