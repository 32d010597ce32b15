import SaasTemplate.Exports.Steps

/-! # Every storage call keeps the invariant

A client reserves and publishes under its own token, publishes what the artifact describes,
and deletes what no artifact that goes on has; then what it is told of the key is true.
-/

set_option linter.unusedSectionVars false

namespace SaasTemplate.Exports

open SaasTemplate.Privacy
open SaasTemplate.Storage (Bytes ArchiveFile StoragePublicationReservation)
open SaasTemplate.Storage.Local

variable {τ : Type} [DecidableEq τ] {sha256 : Bytes → String} {φ : τ → List Fact} {db : Db}
  {t : τ} {ψ : List Fact} {backend : StorageBackend} {key : String}

theorem setObject_self : db.setObject backend key (db.objects backend key) = db := by
  simp [Db.setObject]

theorem Inv.deleted (inv : Inv sha256 φ db)
    (final : ∀ bytes, db.bytes backend key = some bytes → ∀ id a, db.Has id a →
      a.storageBackend = backend → a.storageKey = some key → a.status.isFinal = true) :
    Inv sha256 φ (db.setObject backend key .absent) :=
  inv.settle ⟨nofun, fun bytes there => .inr (final bytes there), nofun, fun _ => rfl, .inl rfl⟩

theorem empty_deleted : Empty φ (db.setObject backend key .absent) backend key :=
  ⟨by simp [Db.bytes, setObject_objects, Node.bytes],
    by simp [Db.reservation, setObject_objects, Node.reservation]⟩

/-! ## Reserving and publishing -/

theorem Inv.reserve (inv : Inv sha256 φ db) {ownerToken : String}
    (prepares : (φ t).any (isPreparedFor key ownerToken) = true) :
    Inv sha256 (Function.update φ t ((φ t).filter (!isValidated ownerToken ·)))
      (db.setObject backend key
        ((StorageCall.reserve key ownerToken).settle sha256 (db.objects backend key)).2) := by
  obtain ⟨p, known, rfl⟩ : ∃ p, .prepared p ownerToken ∈ φ t ∧ p.storageKey = key := by
    obtain ⟨f, known, is⟩ := List.any_eq_true.mp prepares
    cases f with
    | prepared p other =>
        simp only [isPreparedFor, Bool.and_eq_true, beq_iff_eq] at is
        exact ⟨p, is.2 ▸ known, is.1⟩
    | _ => cases is
  have knows : Knows db p := (inv.facts t _ known).isTrue
  have forgot := inv.forget (t := t) (ψ := (φ t).filter (!isValidated ownerToken ·))
    fun f known => (List.mem_filter.mp known).1
  rcases @settle_reserve sha256 (db.objects backend p.storageKey) p.storageKey ownerToken with
    is | ⟨bare, is⟩ <;> rw [is]
  · rwa [setObject_self]
  · refine forgot.settle ⟨nofun, fun bytes there => ?_, fun token owner => ?_, fun _ => rfl,
      .inr ⟨_, knows.issued⟩⟩
    · rw [Db.bytes, bare] at there
      cases there
    · cases owner
      refine .inr fun u q validated => ?_
      -- only the client itself may have validated under its token, and it has forgotten that
      rw [Function.update_apply] at validated
      split at validated
      · simp [isValidated] at validated
      · rename_i other
        exact absurd (inv.owned u t ownerToken (owns_of_mem validated rfl) (owns_of_mem known rfl))
          other

theorem settle_reserve_answer {ownerToken : String} {node : Node}
    {reservation : StoragePublicationReservation}
    (is : ((StorageCall.reserve key ownerToken).settle sha256 node).1 =
      .ok (.reserved reservation)) :
    reservation.key = key ∧ reservation.ownerToken = ownerToken := by
  rcases node with _ | bytes | ⟨_ | owner, _ | bytes⟩ <;>
    simp only [StorageCall.settle, settleReservation] at is <;> grind

section Publish

variable {reservation : StoragePublicationReservation} {file : ArchiveFile} {node : Node}
  {p : PreparedExportArchive} {token : String}

/-- The archive is validated for what is published. -/
structure IsPublished (backend : StorageBackend) (reservation : StoragePublicationReservation)
    (file : ArchiveFile) (p : PreparedExportArchive) (token : String) : Prop where
  backend : p.storageBackend = backend
  key : p.storageKey = reservation.key
  token : token = reservation.ownerToken
  checksum : p.metadata.checksumSha256 = file.checksumSha256
  size : p.metadata.sizeBytes = file.body.length

theorem mem_validatedAt {archive : PreparedExportArchive × String} :
    archive ∈ (φ t).filterMap (validatedAt backend reservation file) ↔
      .validated archive.1 archive.2 ∈ φ t ∧
        IsPublished backend reservation file archive.1 archive.2 := by
  rw [List.mem_filterMap]
  constructor
  · rintro ⟨f, known, is⟩
    cases f with
    | validated p token =>
        simp only [validatedAt, Option.ite_none_right_eq_some, Option.some.injEq] at is
        obtain ⟨⟨place, keyed, mine, checksum, size⟩, rfl⟩ := is
        exact ⟨known, place, keyed, mine, checksum, size⟩
    | _ => cases is
  · rintro ⟨known, place, keyed, mine, checksum, size⟩
    exact ⟨_, known, by simp [validatedAt, place, keyed, ← mine, checksum, size]⟩

/-- An archive is published where its artifact has the key still. -/
theorem Inv.publish (inv : Inv sha256 φ db) (known : .validated p token ∈ φ t)
    (is : IsPublished backend reservation file p token)
    (publishes : Publishes sha256 reservation file (db.objects backend reservation.key) node) :
    Inv sha256 φ (db.setObject backend reservation.key node) := by
  obtain ⟨bytes, there, stays, checksum, size⟩ := publishes.published
  have reserved : db.reservation p.storageBackend p.storageKey = some token := by
    rw [is.backend, is.key, is.token]
    exact publishes.reserved
  obtain ⟨knows, validated⟩ := (inv.facts t _ known).isTrue
  obtain ⟨a, has, place, keyed⟩ := validated reserved
  refine inv.settle ⟨fun b is_ => .inr ?_, fun old was => .inl ?_, fun other owner => .inl ?_,
    fun empty => absurd reserved ?_, .inr ⟨_, is.key ▸ knows.issued⟩⟩
  · cases there.symm.trans is_
    refine ⟨_, a, has, place.trans is.backend, is.key ▸ keyed, ?_⟩
    refine (knows.described a has keyed).2.imp_right fun metadata => ?_
    simp only [ExportArtifact.hasMetadata, Bool.and_eq_true, beq_iff_eq] at metadata
    exact ⟨by rw [metadata.2, is.checksum, checksum], by rw [metadata.1.2, is.size, size]⟩
  · rw [there, stays old was]
  · rcases publishes.owner with none | same
    · rw [none] at owner
      cases owner
    · rw [← owner, same]
      exact publishes.reserved
  · rw [is.backend, is.key]
    exact empty.fenced t p token known is.backend is.key

theorem Inv.learnPublished (inv : Inv sha256 φ (db.setObject backend reservation.key node))
    {bytes : Bytes} (there : node.bytes = some bytes) :
    Inv sha256 (Function.update φ t
      (((φ t).filterMap (validatedAt backend reservation file)).map .storedOf ++ φ t))
      (db.setObject backend reservation.key node) := by
  refine inv.learn fun f known => (List.mem_append.mp known).symm.imp_right fun new => ?_
  obtain ⟨⟨p, token⟩, member, rfl⟩ := List.mem_map.mp new
  obtain ⟨known, is⟩ := mem_validatedAt.mp member
  obtain ⟨handed, knows, -⟩ := inv.facts t _ known
  refine ⟨⟨handed, knows, fun a has leased => ⟨bytes, ?_⟩⟩, nofun, ?_⟩
  · rw [Db.bytes, setObject_objects, if_pos ⟨is.backend, is.key⟩]
    exact there
  · rintro _ ⟨⟩
    exact .inl (owns_of_mem known rfl)

end Publish

theorem Inv.cancel (inv : Inv sha256 φ db) (reservation : StoragePublicationReservation) :
    Inv sha256 φ (db.setObject backend reservation.key
      ((StorageCall.cancel reservation).settle sha256 (db.objects backend reservation.key)).2) := by
  simp only [StorageCall.settle]
  split
  · rename_i reserved
    refine inv.deleted fun bytes there => ?_
    rw [Db.bytes, reserved] at there
    cases there
  · rwa [setObject_self]

/-! ## Inspecting and deleting -/

section Inspect

variable {checksum : String} {size : Nat} {p : PreparedExportArchive} {token : String}

structure IsInspected (backend : StorageBackend) (key checksum : String) (size : Nat)
    (p : PreparedExportArchive) : Prop where
  backend : p.storageBackend = backend
  key : p.storageKey = key
  checksum : p.metadata.checksumSha256 = checksum
  size : p.metadata.sizeBytes = size

theorem preparedAt_iff {archive : PreparedExportArchive × String} :
    archive ∈ (φ t).filterMap (preparedAt backend key checksum size) ↔
      .prepared archive.1 archive.2 ∈ φ t ∧ IsInspected backend key checksum size archive.1 := by
  rw [List.mem_filterMap]
  constructor
  · rintro ⟨f, known, is⟩
    cases f with
    | prepared p token =>
        simp only [preparedAt, Option.ite_none_right_eq_some, Option.some.injEq] at is
        obtain ⟨⟨place, keyed, checksum, size⟩, rfl⟩ := is
        exact ⟨known, place, keyed, checksum, size⟩
    | _ => cases is
  · rintro ⟨known, place, keyed, checksum, size⟩
    exact ⟨_, known, by simp [preparedAt, place, keyed, checksum, size]⟩

/-- The object that was looked for is there. -/
theorem Inv.learnMatching (inv : Inv sha256 φ db)
    (matches_ : inspected sha256 checksum size (db.objects backend key) = .matching) :
    Inv sha256 (Function.update φ t
      (((φ t).filterMap (preparedAt backend key checksum size)).map .storedOf ++ φ t)) db := by
  obtain ⟨bytes, there, -⟩ := inspected_matching.mp matches_
  refine inv.learn fun f known => (List.mem_append.mp known).symm.imp_right fun new => ?_
  obtain ⟨⟨p, token⟩, member, rfl⟩ := List.mem_map.mp new
  obtain ⟨known, is⟩ := preparedAt_iff.mp member
  obtain ⟨handed, knows⟩ := inv.facts t _ known
  refine ⟨⟨handed, knows, fun a has leased => ⟨bytes, ?_⟩⟩, nofun, ?_⟩
  · rw [is.backend, is.key]
    exact there
  · rintro _ ⟨⟩
    exact .inl (owns_of_mem known rfl)

/-- An object that does not match belongs to no artifact that goes on. -/
theorem Inv.deleteIfNotMatching (inv : Inv sha256 φ db) (known : .prepared p token ∈ φ t)
    (is : IsInspected backend key checksum size p)
    (differs : inspected sha256 checksum size (db.objects backend key) ≠ .matching) :
    Inv sha256 φ (db.setObject backend key .absent) := by
  refine inv.deleted fun bytes there id a has place keyed => ?_
  refine Bool.not_eq_false _ ▸ fun going => differs (inspected_matching.mpr ⟨bytes, there, ?_⟩)
  have described := inv.describes (inv.facts t _ known).isTrue (is.backend ▸ is.key ▸ there) has
    (is.key ▸ keyed) going
  exact ⟨described.1.symm.trans is.checksum, described.2.symm.trans is.size⟩

theorem Inv.learnCleaned (inv : Inv sha256 φ (db.setObject backend key .absent)) :
    Inv sha256 (Function.update φ t
      (((φ t).filterMap (preparedAt backend key checksum size)).map .cleanedOf ++ φ t))
      (db.setObject backend key .absent) := by
  refine inv.learn fun f known => (List.mem_append.mp known).symm.imp_right fun new => ?_
  obtain ⟨⟨p, token⟩, member, rfl⟩ := List.mem_map.mp new
  obtain ⟨known, is⟩ := preparedAt_iff.mp member
  obtain ⟨handed, knows⟩ := inv.facts t _ known
  refine ⟨⟨handed, knows, fun a has leased => ?_⟩, nofun, ?_⟩
  · rw [is.backend, is.key]
    exact empty_deleted
  · rintro _ ⟨⟩
    exact .inl (owns_of_mem known rfl)

end Inspect

theorem Inv.delete (inv : Inv sha256 φ db) (known : .retired backend key ∈ φ t) :
    Inv sha256 φ (db.setObject backend key .absent) :=
  inv.deleted fun _ _ id a has _ keyed => (inv.facts t _ known).isTrue.final id a has keyed

theorem Inv.learnEmptied (inv : Inv sha256 φ (db.setObject backend key .absent))
    (known : .retired backend key ∈ φ t) :
    Inv sha256 (Function.update φ t (.emptied backend key :: φ t))
      (db.setObject backend key .absent) := by
  refine inv.learn fun f new => (List.mem_cons.mp new).symm.imp_right ?_
  rintro rfl
  exact ⟨⟨nofun, (inv.facts t _ known).isTrue, empty_deleted⟩, nofun, nofun⟩

end SaasTemplate.Exports
