import SaasTemplate.Exports.Worker

/-! # What a client of the pipeline may know

The phase of a client is a list of facts about artifacts and objects that it has learnt and
may rely on. The automaton says which facts a statement needs and which it teaches or ends;
every program of the pipeline keeps to it, whatever it is answered.
-/

set_option linter.unusedSectionVars false

namespace SaasTemplate.Exports

open SaasTemplate.Isolation SaasTemplate.Isolation.Prog
open SaasTemplate.Privacy
open SaasTemplate.Storage (Bytes ArchiveFile StoragePublicationReservation)
open SaasTemplate.Storage.Local (StorageCall Outcome)

/-! ## Facts -/

inductive Fact where
  /-- the client was handed this lease -/
  | leased (id : Uuid) (token : String)
  /-- under this lease the artifact has no storage key -/
  | intentless (id : Uuid) (token : String)
  /-- this is what the artifact with this storage key says of its object -/
  | prepared (prepared : PreparedExportArchive) (token : String)
  /-- while the client's reservation is there, the artifact has this key -/
  | validated (prepared : PreparedExportArchive) (token : String)
  /-- under this lease there is nothing at the key, and nobody can publish -/
  | cleaned (prepared : PreparedExportArchive) (token : String)
  /-- under this lease the object is there -/
  | stored (prepared : PreparedExportArchive) (token : String)
  /-- whatever artifact has this key is failed, expired or cancelled -/
  | retired (backend : StorageBackend) (key : String)
  /-- and there is nothing at the key, and nobody can publish -/
  | emptied (backend : StorageBackend) (key : String)
  | impossible
  deriving DecidableEq

/-- The lease that a fact belongs to. -/
def Fact.token : Fact → Option String
  | .leased _ token | .intentless _ token | .prepared _ token | .validated _ token
  | .cleaned _ token | .stored _ token => some token
  | .retired _ _ | .emptied _ _ | .impossible => none

def owns (φ : List Fact) (token : String) : Bool := φ.any (·.token == some token)

theorem owns_of_mem {φ : List Fact} {f : Fact} {token : String} (known : f ∈ φ)
    (mine : f.token = some token) : owns φ token = true :=
  List.any_eq_true.mpr ⟨f, known, by simp [mine]⟩

/-! ## The automaton -/

/-- After an artifact was found in processing. -/
def found (φ : List Fact) (id : Uuid) (token : String) (a : ExportArtifact) : List Fact :=
  if owns φ token = false then φ
  else if a.storageKey.isNone then .intentless id token :: φ
  else if .intentless id token ∈ φ then .impossible :: φ
  else match preparedFromCommittedUploadIntent id a with
    | .ok prepared => .prepared prepared token :: φ
    | .error _ => φ

/-- After an upload intent was written and read again. -/
def intended (φ : List Fact) (id : Uuid) (token : String) (metadata : ExportArtifact.Metadata)
    (answer : String × Option ExportArtifact) : List Fact :=
  match answer.2 with
  | none => φ
  | some a => match preparedFromCommittedUploadIntent id a with
      | .error _ => φ
      | .ok prepared =>
          if prepared.storageKey = answer.1 ∧ prepared.metadata = metadata then
            .prepared prepared token :: φ
          else .impossible :: φ

def isCleaned (token : String) : Fact → Bool
  | .cleaned _ other => other == token
  | _ => false

def isValidated (token : String) : Fact → Bool
  | .validated _ other => other == token
  | _ => false

/-- The client has prepared an archive for this key under this token. -/
def isPreparedFor (key token : String) : Fact → Bool
  | .prepared prepared other => prepared.storageKey == key && other == token
  | _ => false

/-- The archives among the facts that are prepared, or validated, for this key and content. -/
def preparedAt (backend : StorageBackend) (key checksumSha256 : String) (sizeBytes : Nat) :
    Fact → Option (PreparedExportArchive × String)
  | .prepared prepared token =>
      if prepared.storageBackend = backend ∧ prepared.storageKey = key ∧
          prepared.metadata.checksumSha256 = checksumSha256 ∧
          prepared.metadata.sizeBytes = sizeBytes then some (prepared, token) else none
  | _ => none

def validatedAt (backend : StorageBackend) (reservation : StoragePublicationReservation)
    (file : ArchiveFile) : Fact → Option (PreparedExportArchive × String)
  | .validated prepared token =>
      if prepared.storageBackend = backend ∧ prepared.storageKey = reservation.key ∧
          token = reservation.ownerToken ∧
          prepared.metadata.checksumSha256 = file.checksumSha256 ∧
          prepared.metadata.sizeBytes = file.body.length then some (prepared, token) else none
  | _ => none

def Fact.storedOf (archive : PreparedExportArchive × String) : Fact := .stored archive.1 archive.2

def Fact.cleanedOf (archive : PreparedExportArchive × String) : Fact :=
  .cleaned archive.1 archive.2

def afterStorage (φ : List Fact) (backend : StorageBackend) :
    StorageCall → Except AppError Outcome → Option (List Fact)
  | .reserve key ownerToken, r =>
      let ψ := φ.filter (!isValidated ownerToken ·)
      if φ.any (isPreparedFor key ownerToken) then match r with
        | .ok (.reserved reservation) =>
            if reservation.key = key ∧ reservation.ownerToken = ownerToken then some ψ
            else some (.impossible :: ψ)
        | _ => some ψ
      else none
  | .publish reservation file, r =>
      let archives := φ.filterMap (validatedAt backend reservation file)
      if archives = [] then none
      else match r with
        | .ok _ => some (archives.map .storedOf ++ φ)
        | .error _ => some φ
  | .cancel _, _ => some φ
  | .inspect key checksumSha256 sizeBytes, r =>
      match r with
      | .ok (.state .matching) =>
          some ((φ.filterMap (preparedAt backend key checksumSha256 sizeBytes)).map .storedOf ++ φ)
      | _ => some φ
  | .deleteIfNotMatching key checksumSha256 sizeBytes, r =>
      let archives := φ.filterMap (preparedAt backend key checksumSha256 sizeBytes)
      if archives = [] then none
      else match r with
        | .ok (.state .matching) => some (archives.map .storedOf ++ φ)
        | .ok _ => some (archives.map .cleanedOf ++ φ)
        | .error _ => some φ
  | .delete key, r =>
      if .retired backend key ∈ φ then match r with
        | .ok _ => some (.emptied backend key :: φ)
        | .error _ => some φ
      else none

/-- What a listed purge says of its key. -/
def Fact.ofPurge (purge : ExportArtifactStoragePurge) : Fact :=
  match purge.storageBackend with
  | some backend => .retired backend purge.storageKey
  | none => .impossible

def Fact.ofDeletion (deletion : DeferredExportObjectDeletion) : Fact :=
  .retired deletion.storageBackend deletion.storageKey

def Fact.ofLease (lease : ProcessingExportLease) : Fact :=
  .leased lease.artifactId lease.processingToken

/-- Are the objects of these purges deleted? -/
def allEmptied (φ : List Fact) (deleted : List ExportArtifactStoragePurge) : Bool :=
  deleted.all fun purge => match purge.storageBackend with
    | some backend => Fact.emptied backend purge.storageKey ∈ φ
    | none => false

theorem allEmptied_iff {φ : List Fact} {deleted : List ExportArtifactStoragePurge} :
    allEmptied φ deleted = true ↔ ∀ purge ∈ deleted, ∃ backend,
      purge.storageBackend = some backend ∧ .emptied backend purge.storageKey ∈ φ := by
  simp only [allEmptied, List.all_eq_true]
  refine forall₂_congr fun purge _ => ?_
  cases purge.storageBackend <;> simp

/-- An artifact that nobody has worked on. -/
structure IsNew (a : ExportArtifact) : Prop where
  status : a.status = .queued
  key : a.storageKey = none
  token : a.processingToken = none

instance (a : ExportArtifact) : Decidable (IsNew a) :=
  decidable_of_iff (a.status = .queued ∧ a.storageKey = none ∧ a.processingToken = none)
    ⟨fun ⟨status, key, token⟩ => ⟨status, key, token⟩, fun ⟨status, key, token⟩ =>
      ⟨status, key, token⟩⟩

def knowing (φ : List Fact) : (s : Statement) → Except AppError (Answer s) → Option (List Fact)
  | .insertArtifact _ artifact, _ => if IsNew artifact then some φ else none
  | .claimQueuedArtifactLeases _, .ok leases => some (leases.map .ofLease ++ φ)
  | .processingArtifact id token, .ok (some a) => some (found φ id token a)
  | .ensureUploadIntent id token metadata, r =>
      if .intentless id token ∈ φ then
        let ψ := φ.filter (· ≠ .intentless id token)
        match r with
        | .ok answer => some (intended ψ id token metadata answer)
        | .error _ => some ψ
      else none
  | .validateUpload prepared token, r =>
      if .prepared prepared token ∈ φ then match r with
        | .ok _ => some (.validated prepared token :: φ.filter (!isCleaned token ·))
        | .error _ => some φ
      else none
  | .resetUploadIntent prepared token, r =>
      if .cleaned prepared token ∈ φ then match r with
        | .ok true => some (.intentless prepared.artifactId token :: φ)
        | _ => some φ
      else none
  | .markReady prepared token, _ => if .stored prepared token ∈ φ then some φ else none
  | .markFailed _ _ _, .ok (some cleanup) =>
      some (.retired cleanup.storageBackend cleanup.storageKey :: φ)
  | .clearFailed cleanup, _ =>
      if .emptied cleanup.storageBackend cleanup.storageKey ∈ φ then some φ else none
  | .listCancelled _, .ok purges => some (purges.map .ofPurge ++ φ)
  | .clearAndListFailed deleted _, r =>
      if allEmptied φ deleted then match r with
        | .ok out => some (out.2.map .ofPurge ++ φ)
        | .error _ => some φ
      else none
  | .clearExpireAndList deleted _ _ _, r =>
      if allEmptied φ deleted then match r with
        | .ok out => some (out.2.map .ofPurge ++ φ)
        | .error _ => some φ
      else none
  | .clearPurges deleted, _ => if allEmptied φ deleted then some φ else none
  | .executeErasure _, .ok deletions => some (deletions.map .ofDeletion ++ φ)
  | .storage backend operation, r => afterStorage φ backend operation r
  | _, _ => some φ

/-- Nothing is asked of a client that has seen the impossible. -/
def knowledge : Automaton (List Fact) Statement Answer AppError := fun φ s r =>
  if .impossible ∈ φ then some φ else knowing φ s r

/-! ## What lasts -/

/-- Facts that no statement ends. -/
def Fact.lasts : Fact → Bool
  | .intentless _ _ | .validated _ _ | .cleaned _ _ => false
  | _ => true

section Lasting

variable {φ ψ : List Fact} {f : Fact}

theorem mem_found {id : Uuid} {token : String} {a : ExportArtifact} (known : f ∈ φ) :
    f ∈ found φ id token a := by
  unfold found
  grind

theorem mem_intended {id : Uuid} {token : String} {metadata : ExportArtifact.Metadata}
    {answer : String × Option ExportArtifact} (known : f ∈ φ) :
    f ∈ intended φ id token metadata answer := by
  unfold intended
  grind

theorem afterStorage_lasts {backend : StorageBackend} {operation : StorageCall}
    {r : Except AppError Outcome} (next : afterStorage φ backend operation r = some ψ)
    (lasts : f.lasts = true) (known : f ∈ φ) : f ∈ ψ := by
  cases operation with
  | reserve key ownerToken =>
      have spared : isValidated ownerToken f = false := by
        cases f <;> first | rfl | cases lasts
      have kept : f ∈ φ.filter (!isValidated ownerToken ·) :=
        List.mem_filter.mpr ⟨known, by simp [spared]⟩
      simp only [afterStorage] at next
      grind
  | publish | cancel | inspect | deleteIfNotMatching | delete =>
      simp only [afterStorage] at next
      grind

theorem knowing_lasts {s : Statement} {r : Except AppError (Answer s)}
    (next : knowing φ s r = some ψ) (lasts : f.lasts = true) (known : f ∈ φ) : f ∈ ψ := by
  have filtered : ∀ {p : Fact → Bool}, p f = true → f ∈ φ.filter p := fun spared =>
    List.mem_filter.mpr ⟨known, spared⟩
  cases s with
  | ensureUploadIntent id token metadata =>
      have spared : f ≠ .intentless id token := by
        rintro rfl
        cases lasts
      cases r <;> simp only [knowing, Option.ite_none_right_eq_some, Option.some.injEq] at next <;>
        rw [← next.2]
      · exact filtered (by simpa using spared)
      · exact mem_intended (filtered (by simpa using spared))
  | validateUpload prepared token =>
      have spared : isCleaned token f = false := by
        cases f <;> first | rfl | cases lasts
      cases r <;> simp only [knowing, Option.ite_none_right_eq_some, Option.some.injEq] at next <;>
        rw [← next.2]
      · exact known
      · exact List.mem_cons_of_mem _ (filtered (by simp [spared]))
  | processingArtifact id token =>
      rcases r with e | _ | a <;> cases next
      · exact known
      · exact known
      · exact mem_found known
  | storage backend operation => exact afterStorage_lasts next lasts known
  | _ =>
      unfold knowing at next
      grind

end Lasting

end SaasTemplate.Exports
