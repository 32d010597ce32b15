import SaasTemplate.Exports.Knowledge
import SaasTemplate.Privacy.RetentionSafety
import SaasTemplate.Text.CodePoints

/-! # Artifacts and objects belong together

What holds of the artifacts, the objects and the facts of all clients: an object lies at the
key of an artifact that describes it or is over, and an artifact that is ready has its object.
A transaction keeps it that rewrites artifacts one by one, and a storage call that changes one
key.
-/

set_option linter.unusedSectionVars false

namespace SaasTemplate.Exports

open SaasTemplate.Privacy
open SaasTemplate.Storage (Bytes)
open SaasTemplate.Storage.Local (Node)
open Retention (Table)

variable {τ : Type} [DecidableEq τ] {sha256 : Bytes → String} {φ φ' : τ → List Fact} {db db' : Db}
  {id : Uuid} {a b : ExportArtifact}

/-! ## Keys -/

/-- A key that an artifact may have. -/
def Issued (db : Db) (id : Uuid) (key : String) : Prop :=
  ∃ uuid ∈ db.used, uuid.length = 36 ∧ key = candidateStorageKey id uuid

theorem Issued.mono {key : String} (issued : Issued db id key) (used : db.used ⊆ db'.used) :
    Issued db' id key :=
  issued.imp fun _ ⟨mem, rest⟩ => ⟨used mem, rest⟩

theorem candidateStorageKey_inj {id' : Uuid} {uuid uuid' : String} (length : uuid.length = 36)
    (length' : uuid'.length = 36)
    (same : candidateStorageKey id uuid = candidateStorageKey id' uuid') :
    id = id' ∧ uuid = uuid' := by
  have parts : ∀ (n : Nat) (u : String),
      candidateStorageKey n u = "exports/" ++ (n.repr ++ "/" ++ u) ++ ".zip" := fun n u => by
    simp only [candidateStorageKey, String.append_assoc]
    rfl
  have texts := String.toList_inj.mpr same
  simp only [parts, String.toList_append, List.append_cancel_left_eq,
    List.append_cancel_right_eq] at texts
  obtain ⟨ids, uuids⟩ := List.append_inj' texts (by
    rw [String.length_toList, String.length_toList, length, length'])
  replace ids := List.append_cancel_right ids
  exact ⟨Nat.repr_injective (String.toList_inj.mp ids), String.toList_inj.mp uuids⟩

theorem Issued.id_eq {id' : Uuid} {key : String} (issued : Issued db id key)
    (issued' : Issued db id' key) : id = id' := by
  obtain ⟨uuid, -, length, rfl⟩ := issued
  obtain ⟨uuid', -, length', same⟩ := issued'
  exact (candidateStorageKey_inj length length' same).1

/-! ## What facts say -/

def Db.Has (db : Db) (id : Uuid) (a : ExportArtifact) : Prop := (id, a) ∈ db.artifacts.rows

def Db.bytes (db : Db) (backend : StorageBackend) (key : String) : Option Bytes :=
  (db.objects backend key).bytes

def Db.reservation (db : Db) (backend : StorageBackend) (key : String) : Option String :=
  (db.objects backend key).reservation

/-- The artifact says this of its object. -/
def Describes (sha256 : Bytes → String) (a : ExportArtifact) (bytes : Bytes) : Prop :=
  a.checksumSha256 = some (sha256 bytes) ∧ a.sizeBytes = some bytes.length

/-- Nothing is at the key, and no client can publish there. -/
structure Empty (φ : τ → List Fact) (db : Db) (backend : StorageBackend) (key : String) : Prop where
  bytes : db.bytes backend key = none
  fenced : ∀ t p token, .validated p token ∈ φ t → p.storageBackend = backend →
    p.storageKey = key → db.reservation backend key ≠ some token

/-- The archive is what the artifact with its key describes, unless that is over. -/
structure Knows (db : Db) (p : PreparedExportArchive) : Prop where
  issued : Issued db p.artifactId p.storageKey
  described : ∀ a, db.Has p.artifactId a → a.storageKey = some p.storageKey →
    a.storageBackend = p.storageBackend ∧
      (a.status.isFinal = true ∨ a.hasMetadata p.metadata = true)

structure IsRetired (db : Db) (backend : StorageBackend) (key : String) : Prop where
  issued : ∃ id, Issued db id key
  backend : ∀ id a, db.Has id a → a.storageKey = some key → a.storageBackend = backend
  final : ∀ id a, db.Has id a → a.storageKey = some key → a.status.isFinal = true

/-- The artifact is leased, with the key of the archive. -/
def LeasedAt (p : PreparedExportArchive) (token : String) (a : ExportArtifact) : Prop :=
  a.isProcessingWith token = true ∧ a.storageKey = some p.storageKey

def Fact.IsTrue (φ : τ → List Fact) (db : Db) : Fact → Prop
  | .leased _ _ => True
  | .intentless id token => ∀ a, db.Has id a → a.isProcessingWith token = true → a.storageKey = none
  | .prepared p _ => Knows db p
  | .validated p token => Knows db p ∧ (db.reservation p.storageBackend p.storageKey = some token →
      ∃ a, db.Has p.artifactId a ∧ a.storageBackend = p.storageBackend ∧
        a.storageKey = some p.storageKey)
  | .cleaned p token => Knows db p ∧ ∀ a, db.Has p.artifactId a → LeasedAt p token a →
      Empty φ db p.storageBackend p.storageKey
  | .stored p token => Knows db p ∧ ∀ a, db.Has p.artifactId a → LeasedAt p token a →
      ∃ bytes, db.bytes p.storageBackend p.storageKey = some bytes
  | .retired backend key => IsRetired db backend key
  | .emptied backend key => IsRetired db backend key ∧ Empty φ db backend key
  | .impossible => False

/-- The fact is true, and its lease has been handed out. -/
structure Fact.Holds (φ : τ → List Fact) (db : Db) (f : Fact) : Prop where
  handed : ∀ token, f.token = some token → token ∈ db.used
  isTrue : f.IsTrue φ db

/-- Artifacts and objects belong together. -/
structure Consistent (sha256 : Bytes → String) (db : Db) : Prop where
  keys : ∀ id a key, db.Has id a → a.storageKey = some key → Issued db id key
  published : ∀ backend key bytes, db.bytes backend key = some bytes → ∃ id a, db.Has id a ∧
    a.storageBackend = backend ∧ a.storageKey = some key ∧
      (a.status.isFinal = true ∨ Describes sha256 a bytes)
  ready : ∀ id a, db.Has id a → a.status = .ready →
    ∃ key bytes, a.storageKey = some key ∧ db.bytes a.storageBackend key = some bytes
  described : ∀ id a key, db.Has id a → a.storageKey = some key →
    a.status.isFinal = true ∨ ∃ metadata, a.hasMetadata metadata = true
  untouched : ∀ backend key, (∀ id, ¬Issued db id key) → db.objects backend key = .absent

structure Inv (sha256 : Bytes → String) (φ : τ → List Fact) (db : Db) : Prop
    extends Consistent sha256 db where
  facts : ∀ t f, f ∈ φ t → f.Holds φ db
  owned : ∀ t u token, owns (φ t) token = true → owns (φ u) token = true → t = u

/-- Only the artifact with this id has the key. -/
theorem Consistent.unique (inv : Consistent sha256 db) {key : String} (issued : Issued db id key)
    {id' : Uuid} {a : ExportArtifact} (has : db.Has id' a) (keyed : a.storageKey = some key) :
    id' = id :=
  (inv.keys id' a key has keyed).id_eq issued

theorem has_eq (has : db.Has id a) (has' : db.Has id b) : a = b := Table.eq_of_mem has has'

theorem not_final_of_processing {token : String} (processing : a.isProcessingWith token = true) :
    a.status.isFinal = false := by
  simp only [ExportArtifact.isProcessingWith, Bool.and_eq_true, beq_iff_eq] at processing
  rw [processing.1]
  rfl

/-- An artifact that is described by the facts of a client is the one its object belongs to. -/
theorem Consistent.describes (inv : Consistent sha256 db) {p : PreparedExportArchive}
    (knows : Knows db p) {bytes : Bytes}
    (there : db.bytes p.storageBackend p.storageKey = some bytes) (has : db.Has id a)
    (keyed : a.storageKey = some p.storageKey) (going : a.status.isFinal = false) :
    p.metadata.checksumSha256 = sha256 bytes ∧ p.metadata.sizeBytes = bytes.length := by
  obtain rfl := inv.unique knows.issued has keyed
  obtain ⟨id', a', has', -, keyed', describes⟩ := inv.published _ _ _ there
  obtain rfl := inv.unique knows.issued has' keyed'
  obtain rfl := has_eq has has'
  obtain ⟨-, final | metadata⟩ := knows.described a has keyed
  · rw [going] at final
    cases final
  · obtain final | ⟨checksum, size⟩ := describes
    · rw [going] at final
      cases final
    · simp only [ExportArtifact.hasMetadata, Bool.and_eq_true, beq_iff_eq] at metadata
      grind

/-! ## Learning and forgetting -/

theorem Empty.mono {backend : StorageBackend} {key : String} (empty : Empty φ db backend key)
    (fewer : ∀ t p token, .validated p token ∈ φ' t → .validated p token ∈ φ t) :
    Empty φ' db backend key :=
  ⟨empty.bytes, fun t p token known => empty.fenced t p token (fewer t p token known)⟩

theorem Fact.Holds.mono {f : Fact} (holds : f.Holds φ db)
    (fewer : ∀ t p token, .validated p token ∈ φ' t → .validated p token ∈ φ t) :
    f.Holds φ' db := by
  refine ⟨holds.handed, ?_⟩
  have isTrue := holds.isTrue
  cases f with
  | cleaned p token => exact ⟨isTrue.1, fun a has leased => (isTrue.2 a has leased).mono fewer⟩
  | emptied backend key => exact ⟨isTrue.1, isTrue.2.mono fewer⟩
  | _ => exact isTrue

/-- A client may forget facts, and learn true ones that belong to its leases or to no one's. -/
theorem Inv.learn (inv : Inv sha256 φ db) {t : τ} {ψ : List Fact}
    (new : ∀ f ∈ ψ, f ∈ φ t ∨ f.Holds φ db ∧ (∀ p token, f ≠ .validated p token) ∧
      ∀ token, f.token = some token → owns (φ t) token = true ∨ ∀ u, owns (φ u) token = false) :
    Inv sha256 (Function.update φ t ψ) db := by
  have at_ : ∀ u, Function.update φ t ψ u = if u = t then ψ else φ u := fun u => by
    rw [Function.update_apply]
  have fewer : ∀ u p token, .validated p token ∈ Function.update φ t ψ u →
      .validated p token ∈ φ u := by
    intro u p token known
    rw [at_] at known
    split at known
    · rename_i same
      subst same
      exact (new _ known).elim id fun new => absurd rfl (new.2.1 p token)
    · exact known
  have belongs : ∀ u token, owns (Function.update φ t ψ u) token = true →
      owns (φ u) token = true ∨ u = t ∧ ∀ v, owns (φ v) token = false := by
    intro u token mine
    rw [at_] at mine
    split at mine
    · rename_i same
      subst same
      obtain ⟨f, known, mine⟩ := List.any_eq_true.mp mine
      rw [beq_iff_eq] at mine
      rcases new f known with old | ⟨-, -, new⟩
      · exact .inl (owns_of_mem old mine)
      · exact (new token mine).imp id fun free => ⟨rfl, free⟩
    · exact .inl mine
  refine ⟨inv.toConsistent, fun u f known => ?_, fun u v token mine yours => ?_⟩
  · rw [at_] at known
    split at known
    · rcases new f known with old | new
      · exact (inv.facts _ f old).mono fewer
      · exact new.1.mono fewer
    · exact (inv.facts u f known).mono fewer
  · rcases belongs u token mine with first | ⟨here, free⟩ <;>
      rcases belongs v token yours with second | ⟨there, free'⟩
    · exact inv.owned u v token first second
    · rw [free'] at first
      cases first
    · rw [free] at second
      cases second
    · rw [here, there]

theorem Inv.forget (inv : Inv sha256 φ db) {t : τ} {ψ : List Fact} (fewer : ∀ f ∈ ψ, f ∈ φ t) :
    Inv sha256 (Function.update φ t ψ) db :=
  inv.learn fun f known => .inl (fewer f known)

/-- A client that validates its upload may publish, so it no longer counts on an empty key. -/
theorem Inv.validate (inv : Inv sha256 φ db) {t : τ} {p : PreparedExportArchive} {token : String}
    (known : .prepared p token ∈ φ t)
    (valid : validatePreparedExportUpload p token db = .ok ()) :
    Inv sha256 (Function.update φ t (.validated p token :: (φ t).filter (!isCleaned token ·)))
      db := by
  obtain ⟨handed, knows⟩ := inv.facts t _ known
  obtain ⟨a, has, leased, backend, keyed⟩ : ∃ a, db.Has p.artifactId a ∧
      a.isProcessingWith token = true ∧ a.storageBackend = p.storageBackend ∧
        a.storageKey = some p.storageKey := by
    unfold validatePreparedExportUpload at valid
    split at valid
    · cases valid
    · rename_i a is
      obtain ⟨has, meets⟩ := Table.mem_of_find is
      simp only [ExportArtifact.isLeasedTo, isAt, Bool.and_eq_true, beq_iff_eq] at meets
      exact ⟨a, has, meets.1.1.1, meets.2⟩
  have mine : owns (φ t) token = true := owns_of_mem known rfl
  have at_ : ∀ u f, f ∈ Function.update φ t (.validated p token :: (φ t).filter
      (!isCleaned token ·)) u → f ∈ φ u ∧ (u = t → isCleaned token f = false) ∨
        u = t ∧ f = .validated p token := by
    intro u f known
    rw [Function.update_apply] at known
    split at known
    · rename_i same
      subst same
      rcases List.mem_cons.mp known with rfl | known
      · exact .inr ⟨rfl, rfl⟩
      · obtain ⟨known, other⟩ := List.mem_filter.mp known
        exact .inl ⟨known, fun _ => by simpa using other⟩
    · rename_i other
      exact .inl ⟨known, fun same => absurd same other⟩
  have empty : ∀ {backend key}, key ≠ p.storageKey → Empty φ db backend key →
      Empty (Function.update φ t (.validated p token :: (φ t).filter (!isCleaned token ·))) db
        backend key := by
    intro backend key other empty
    refine ⟨empty.bytes, fun u q token' known place keyed => ?_⟩
    rcases at_ u _ known with ⟨old, -⟩ | ⟨-, is⟩
    · exact empty.fenced u q token' old place keyed
    · cases is
      exact absurd keyed.symm other
  refine ⟨inv.toConsistent, fun u f known => ?_, fun u v token' mine' yours => ?_⟩
  · rcases at_ u f known with ⟨old, spared⟩ | ⟨-, rfl⟩
    · obtain ⟨handed', isTrue⟩ := inv.facts u f old
      refine ⟨handed', ?_⟩
      cases f with
      | cleaned q token' =>
          refine ⟨isTrue.1, fun b hasb ⟨leasedb, keyedb⟩ => ?_⟩
          refine empty (fun same => ?_) (isTrue.2 b hasb ⟨leasedb, keyedb⟩)
          -- the artifact is leased to one of the two only
          rw [same] at keyedb
          have ids := inv.unique knows.issued hasb keyedb
          rw [ids] at hasb
          obtain rfl := has_eq has hasb
          simp only [ExportArtifact.isProcessingWith, Bool.and_eq_true,
            beq_iff_eq] at leased leasedb
          obtain rfl : token = token' := by grind
          have twice := inv.owned u t token (owns_of_mem old rfl) mine
          simpa [isCleaned] using spared twice
      | emptied backend' key =>
          refine ⟨isTrue.1, empty (fun same => ?_) isTrue.2⟩
          have final := isTrue.1.final _ a has (same ▸ keyed)
          rw [not_final_of_processing leased] at final
          cases final
      | _ => exact isTrue
    · exact ⟨handed, knows, fun _ => ⟨a, has, backend, keyed⟩⟩
  · have belongs : ∀ w, owns (Function.update φ t (.validated p token :: (φ t).filter
        (!isCleaned token ·)) w) token' = true → owns (φ w) token' = true := by
      intro w its
      obtain ⟨f, known, is⟩ := List.any_eq_true.mp its
      rw [beq_iff_eq] at is
      rcases at_ w f known with ⟨old, -⟩ | ⟨rfl, rfl⟩
      · exact owns_of_mem old is
      · cases is
        exact mine
    exact inv.owned u v token' (belongs u mine') (belongs v yours)

/-! ## Rewriting artifacts -/

/-- What may become of the key of an artifact. -/
inductive KeyMove (φ : τ → List Fact) (db db' : Db) (id : Uuid) (a b : ExportArtifact) : Prop where
  | kept (is : b.storageKey = a.storageKey)
  | cleared (is : b.storageKey = none)
      (empty : ∀ key, a.storageKey = some key → Empty φ db a.storageBackend key)
  | assigned (uuid : String) (was : a.storageKey = none)
      (is : b.storageKey = some (candidateStorageKey id uuid)) (new : uuid ∉ db.used)
      (drawn : uuid ∈ db'.used) (length : uuid.length = 36)
      (described : ∃ metadata, b.hasMetadata metadata = true)
      (free : ∀ t token, .intentless id token ∈ φ t → b.isProcessingWith token = false)

/-- What may become of an artifact. -/
structure Rewritten (φ : τ → List Fact) (db db' : Db) (id : Uuid) (a b : ExportArtifact) :
    Prop where
  backend : b.storageBackend = a.storageBackend
  key : KeyMove φ db db' id a b
  token : ∀ token ∈ db.used, b.isProcessingWith token = true → a.isProcessingWith token = true
  final : a.status.isFinal = true → b.status.isFinal = true
  ready : b.status = .ready → a.status = .ready ∨
    ∃ key bytes, b.storageKey = some key ∧ db.bytes b.storageBackend key = some bytes
  metadata : ∀ key, a.storageKey = some key → b.storageKey = some key →
    b.status.isFinal = true ∨ a.storage = b.storage

theorem Rewritten.refl (φ : τ → List Fact) (db db' : Db) (id : Uuid) (a : ExportArtifact) :
    Rewritten φ db db' id a a :=
  ⟨rfl, .kept rfl, fun _ _ same => same, fun final => final, .inl, fun _ _ _ => .inr rfl⟩

theorem Rewritten.hasMetadata {key : String} {metadata : ExportArtifact.Metadata}
    (rewritten : Rewritten φ db db' id a b) (keyed : a.storageKey = some key)
    (keyedB : b.storageKey = some key) (described : a.hasMetadata metadata = true) :
    b.status.isFinal = true ∨ b.hasMetadata metadata = true := by
  refine (rewritten.metadata key keyed keyedB).imp_right fun same => ?_
  simp only [ExportArtifact.storage, Prod.mk.injEq] at same
  obtain ⟨-, filename, contentType, size, checksum⟩ := same
  simpa only [ExportArtifact.hasMetadata, filename, contentType, size, checksum] using described

/-- A transaction rewrites artifacts and creates new ones. -/
structure Rewrites (φ : τ → List Fact) (db db' : Db) : Prop where
  objects : db'.objects = db.objects
  used : db.used ⊆ db'.used
  forth : ∀ id a, db.Has id a → ∃ b, db'.Has id b ∧ Rewritten φ db db' id a b
  back : ∀ id b, db'.Has id b → IsNew b ∨ ∃ a, db.Has id a ∧ Rewritten φ db db' id a b

section Rewriting

variable (rewrites : Rewrites φ db db')
include rewrites

theorem Rewrites.bytes (backend : StorageBackend) (key : String) :
    db'.bytes backend key = db.bytes backend key := by
  simp only [Db.bytes, rewrites.objects]

theorem Rewrites.empty {backend : StorageBackend} {key : String} (empty : Empty φ db backend key) :
    Empty φ db' backend key :=
  ⟨by rw [rewrites.bytes, empty.bytes], by
    simp only [Db.reservation, rewrites.objects]
    exact empty.fenced⟩

/-- A key that was issued is not handed out again. -/
theorem Rewrites.key_back {id' : Uuid} {key : String} (issued : Issued db id' key)
    (has : db'.Has id b) (keyed : b.storageKey = some key) :
    ∃ a, db.Has id a ∧ Rewritten φ db db' id a b ∧ a.storageKey = some key := by
  rcases rewrites.back id b has with new | ⟨a, was, rewritten⟩
  · rw [new.key] at keyed
    cases keyed
  · refine ⟨a, was, rewritten, ?_⟩
    cases rewritten.key with
    | kept is => rw [← is, keyed]
    | cleared is => rw [is] at keyed; cases keyed
    | assigned uuid none is new drawn length =>
        obtain ⟨uuid', used, length', rfl⟩ := issued
        rw [is] at keyed
        have same := (candidateStorageKey_inj length length' (Option.some.inj keyed)).2
        exact absurd (same ▸ used) new

/-- An artifact keeps a key that is not empty. -/
theorem Rewrites.key_forth {key : String} (has : db.Has id a) (keyed : a.storageKey = some key)
    (full : ¬Empty φ db a.storageBackend key) :
    ∃ b, db'.Has id b ∧ Rewritten φ db db' id a b ∧ b.storageKey = some key := by
  obtain ⟨b, hasb, rewritten⟩ := rewrites.forth id a has
  refine ⟨b, hasb, rewritten, ?_⟩
  cases rewritten.key with
  | kept is => rw [is, keyed]
  | cleared is empty => exact absurd (empty key keyed) full
  | assigned uuid none => rw [none] at keyed; cases keyed

theorem Rewrites.leased_back {p : PreparedExportArchive} {token : String} (knows : Knows db p)
    (handed : token ∈ db.used) (has : db'.Has id b) (leased : LeasedAt p token b) :
    ∃ a, db.Has id a ∧ LeasedAt p token a := by
  obtain ⟨a, was, rewritten, keyed⟩ := rewrites.key_back knows.issued has leased.2
  exact ⟨a, was, rewritten.token token handed leased.1, keyed⟩

theorem Rewrites.knows {p : PreparedExportArchive} (knows : Knows db p) : Knows db' p := by
  refine ⟨knows.issued.mono rewrites.used, fun b has keyed => ?_⟩
  obtain ⟨a, was, rewritten, keyedA⟩ := rewrites.key_back knows.issued has keyed
  obtain ⟨backend, described⟩ := knows.described a was keyedA
  refine ⟨rewritten.backend.trans backend, ?_⟩
  rcases described with final | metadata
  · exact .inl (rewritten.final final)
  · exact rewritten.hasMetadata keyedA keyed metadata

theorem Rewrites.retired {backend : StorageBackend} {key : String}
    (retired : IsRetired db backend key) : IsRetired db' backend key := by
  obtain ⟨⟨id', issued⟩, place, final⟩ := retired
  refine ⟨⟨id', issued.mono rewrites.used⟩, fun id b has keyed => ?_, fun id b has keyed => ?_⟩ <;>
    obtain ⟨a, was, rewritten, keyedA⟩ := rewrites.key_back issued has keyed
  · exact rewritten.backend.trans (place id a was keyedA)
  · exact rewritten.final (final id a was keyedA)

theorem Rewrites.holds {t : τ} {f : Fact} (known : f ∈ φ t) (holds : f.Holds φ db) :
    f.Holds φ db' := by
  obtain ⟨handed, isTrue⟩ := holds
  refine ⟨fun token is => rewrites.used (handed token is), ?_⟩
  cases f with
  | leased => trivial
  | intentless id token =>
      intro b has processing
      rcases rewrites.back id b has with new | ⟨a, was, rewritten⟩
      · exact new.key
      · have none := isTrue a was (rewritten.token token (handed token rfl) processing)
        cases rewritten.key with
        | kept is => rw [is, none]
        | cleared is => exact is
        | assigned _ _ _ _ _ _ _ free => rw [free t token known] at processing; cases processing
  | prepared p token => exact rewrites.knows isTrue
  | validated p token =>
      refine ⟨rewrites.knows isTrue.1, fun reserved => ?_⟩
      simp only [Db.reservation, rewrites.objects] at reserved
      obtain ⟨a, has, backend, keyed⟩ := isTrue.2 reserved
      have full : ¬Empty φ db a.storageBackend p.storageKey := fun empty =>
        empty.fenced t p token known backend.symm rfl (backend ▸ reserved)
      obtain ⟨b, hasb, rewritten, keyedb⟩ := rewrites.key_forth has keyed full
      exact ⟨b, hasb, rewritten.backend.trans backend, keyedb⟩
  | cleaned p token =>
      refine ⟨rewrites.knows isTrue.1, fun b has leased => ?_⟩
      obtain ⟨a, was, leased⟩ := rewrites.leased_back isTrue.1 (handed token rfl) has leased
      exact rewrites.empty (isTrue.2 a was leased)
  | stored p token =>
      refine ⟨rewrites.knows isTrue.1, fun b has leased => ?_⟩
      obtain ⟨a, was, leased⟩ := rewrites.leased_back isTrue.1 (handed token rfl) has leased
      simpa only [rewrites.bytes] using isTrue.2 a was leased
  | retired backend key => exact rewrites.retired isTrue
  | emptied backend key => exact ⟨rewrites.retired isTrue.1, rewrites.empty isTrue.2⟩
  | impossible => exact isTrue

end Rewriting

theorem Inv.rewrite (inv : Inv sha256 φ db) (rewrites : Rewrites φ db db') : Inv sha256 φ db' := by
  refine ⟨⟨fun id b key has keyed => ?_, fun backend key bytes there => ?_,
    fun id b has ready => ?_, fun id b key has keyed => ?_, fun backend key free => ?_⟩,
    fun t f known => rewrites.holds known (inv.facts t f known), inv.owned⟩
  · rcases rewrites.back id b has with new | ⟨a, was, rewritten⟩
    · rw [new.key] at keyed
      cases keyed
    · cases rewritten.key with
      | kept is => exact (inv.keys id a key was (is ▸ keyed)).mono rewrites.used
      | cleared is => rw [is] at keyed; cases keyed
      | assigned uuid _ is _ drawn length =>
          rw [is] at keyed
          exact ⟨uuid, drawn, length, (Option.some.inj keyed).symm⟩
  · rw [rewrites.bytes] at there
    obtain ⟨id, a, has, rfl, keyed, described⟩ := inv.published _ key bytes there
    have full : ¬Empty φ db a.storageBackend key := fun empty => by
      rw [empty.bytes] at there
      cases there
    obtain ⟨b, hasb, rewritten, keyedb⟩ := rewrites.key_forth has keyed full
    refine ⟨id, b, hasb, rewritten.backend, keyedb, ?_⟩
    rcases described with final | describes
    · exact .inl (rewritten.final final)
    · refine (rewritten.metadata key keyed keyedb).imp_right fun same => ?_
      simp only [ExportArtifact.storage, Prod.mk.injEq] at same
      exact ⟨same.2.2.2.2 ▸ describes.1, same.2.2.2.1 ▸ describes.2⟩
  · simp only [rewrites.bytes]
    rcases rewrites.back id b has with new | ⟨a, was, rewritten⟩
    · rw [new.status] at ready
      cases ready
    · rcases rewritten.ready ready with readyA | there
      · obtain ⟨key, bytes, keyed, there⟩ := inv.ready id a was readyA
        have full : ¬Empty φ db a.storageBackend key := fun empty => by
          rw [empty.bytes] at there
          cases there
        obtain ⟨b', hasb, -, keyedb⟩ := rewrites.key_forth was keyed full
        obtain rfl := has_eq has hasb
        exact ⟨key, bytes, keyedb, rewritten.backend ▸ there⟩
      · exact there
  · rcases rewrites.back id b has with new | ⟨a, was, rewritten⟩
    · rw [new.key] at keyed
      cases keyed
    · cases rewritten.key with
      | kept is =>
          rw [is] at keyed
          rcases inv.described id a key was keyed with final | ⟨metadata, described⟩
          · exact .inl (rewritten.final final)
          · exact (rewritten.hasMetadata keyed (is.trans keyed) described).imp_right fun same =>
              ⟨metadata, same⟩
      | cleared is => rw [is] at keyed; cases keyed
      | assigned _ _ _ _ _ _ described => exact .inr described
  · rw [rewrites.objects]
    exact inv.untouched backend key fun id issued => free id (issued.mono rewrites.used)

/-! ## Changing one key -/

theorem setObject_objects (backend : StorageBackend) (key : String) (node : Node)
    (b : StorageBackend) (k : String) : (db.setObject backend key node).objects b k =
      if b = backend ∧ k = key then node else db.objects b k := by
  by_cases here : b = backend
  · subst here
    by_cases same : k = key
    · subst same
      simp [Db.setObject]
    · simp [Db.setObject, same]
  · simp [Db.setObject, here]

theorem Knows.setObject {p : PreparedExportArchive} (knows : Knows db p) {backend : StorageBackend}
    {key : String} {node : Node} : Knows (db.setObject backend key node) p :=
  ⟨knows.issued, knows.described⟩

theorem IsRetired.setObject {b : StorageBackend} {k : String} (retired : IsRetired db b k)
    {backend : StorageBackend} {key : String} {node : Node} :
    IsRetired (db.setObject backend key node) b k :=
  ⟨retired.issued, retired.backend, retired.final⟩

/-- What a storage call may make of its key. -/
structure Settles (sha256 : Bytes → String) (φ : τ → List Fact) (db : Db) (backend : StorageBackend)
    (key : String) (node : Node) : Prop where
  published : ∀ bytes, node.bytes = some bytes → db.bytes backend key = some bytes ∨
    ∃ id a, db.Has id a ∧ a.storageBackend = backend ∧ a.storageKey = some key ∧
      (a.status.isFinal = true ∨ Describes sha256 a bytes)
  kept : ∀ bytes, db.bytes backend key = some bytes → node.bytes = some bytes ∨
    ∀ id a, db.Has id a → a.storageBackend = backend → a.storageKey = some key →
      a.status.isFinal = true
  owner : ∀ token, node.reservation = some token → db.reservation backend key = some token ∨
    ∀ t p, .validated p token ∈ φ t → ¬(p.storageBackend = backend ∧ p.storageKey = key)
  empty : Empty φ db backend key → node.bytes = none
  issued : node = .absent ∨ ∃ id, Issued db id key

section Settling

variable {backend : StorageBackend} {key : String} {node : Node}
  (settles : Settles sha256 φ db backend key node)
include settles

theorem Settles.emptiness {b : StorageBackend} {k : String} (empty : Empty φ db b k) :
    Empty φ (db.setObject backend key node) b k := by
  by_cases here : b = backend ∧ k = key
  · obtain ⟨rfl, rfl⟩ := here
    refine ⟨?_, fun t p token known place keyed reserved => ?_⟩
    · simpa [Db.bytes, setObject_objects] using settles.empty empty
    · simp only [Db.reservation, setObject_objects, and_self, if_true] at reserved
      rcases settles.owner token reserved with was | none
      · exact empty.fenced t p token known place keyed was
      · exact none t p known ⟨place, keyed⟩
  · refine ⟨?_, fun t p token known place keyed => ?_⟩
    · simpa only [Db.bytes, setObject_objects, if_neg here] using empty.bytes
    · simpa only [Db.reservation, setObject_objects, if_neg here] using
        empty.fenced t p token known place keyed

/-- The object of an artifact that is going on stays. -/
theorem Settles.stays {b : StorageBackend} {k : String} {bytes : Bytes}
    (there : db.bytes b k = some bytes) (has : db.Has id a) (place : a.storageBackend = b)
    (keyed : a.storageKey = some k) (going : a.status.isFinal = false) :
    (db.setObject backend key node).bytes b k = some bytes := by
  simp only [Db.bytes, setObject_objects]
  split
  · rename_i here
    obtain ⟨rfl, rfl⟩ := here
    rcases settles.kept bytes there with stays | final
    · exact stays
    · rw [final id a has place keyed] at going
      cases going
  · exact there

theorem Settles.holds {t : τ} {f : Fact} (known : f ∈ φ t) (holds : f.Holds φ db) :
    f.Holds φ (db.setObject backend key node) := by
  refine ⟨holds.handed, ?_⟩
  have isTrue := holds.isTrue
  cases f with
  | prepared p token => exact Knows.setObject isTrue
  | validated p token =>
      refine ⟨isTrue.1.setObject, fun reserved => isTrue.2 ?_⟩
      simp only [Db.reservation, setObject_objects] at reserved
      split at reserved
      · rename_i here
        rcases settles.owner token reserved with was | none
        · rw [here.1, here.2]
          exact was
        · exact absurd here (none t p known)
      · exact reserved
  | cleaned p token =>
      exact ⟨isTrue.1.setObject, fun a has leased => settles.emptiness (isTrue.2 a has leased)⟩
  | stored p token =>
      refine ⟨isTrue.1.setObject, fun a has leased => ?_⟩
      obtain ⟨bytes, there⟩ := isTrue.2 a has leased
      have place := (isTrue.1.described a has leased.2).1
      exact ⟨bytes, settles.stays there has place leased.2 (not_final_of_processing leased.1)⟩
  | retired b k => exact IsRetired.setObject isTrue
  | emptied b k => exact ⟨isTrue.1.setObject, settles.emptiness isTrue.2⟩
  | _ => exact isTrue

end Settling

theorem Inv.settle {backend : StorageBackend} {key : String} {node : Node} (inv : Inv sha256 φ db)
    (settles : Settles sha256 φ db backend key node) :
    Inv sha256 φ (db.setObject backend key node) := by
  refine ⟨⟨inv.keys, fun b k bytes there => ?_, fun id a has ready => ?_, inv.described,
    fun b k free => ?_⟩, fun t f known => settles.holds known (inv.facts t f known), inv.owned⟩
  · simp only [Db.bytes, setObject_objects] at there
    split at there
    · rename_i here
      obtain ⟨rfl, rfl⟩ := here
      exact (settles.published bytes there).elim (inv.published _ _ bytes) id
    · exact inv.published b k bytes there
  · obtain ⟨k, bytes, keyed, there⟩ := inv.ready id a has ready
    exact ⟨k, bytes, keyed, settles.stays there has rfl keyed (by rw [ready]; rfl)⟩
  · rw [setObject_objects]
    split
    · rename_i here
      obtain ⟨rfl, rfl⟩ := here
      exact settles.issued.resolve_right fun ⟨id, issued⟩ => free id issued
    · exact inv.untouched b k free

end SaasTemplate.Exports
