import SaasTemplate.Privacy.ExecutionMirror
import SaasTemplate.Privacy.Lifecycle

/-! # The current artifact of a request

The service takes the first of the artifacts that were queued last, on a list in which those
created later come first. The health queries take an artifact for current if the database finds
none that is newer. An id decides for neither of them.
-/

namespace SaasTemplate.Privacy

variable {rows listing : List (Uuid × ExportArtifact)} {request : Uuid}
  {a b row : Uuid × ExportArtifact}

/-- `_newer_artifact_for_same_dsr_exists`, of a row of the outer query. -/
def newerArtifactForSameDsrExists (rows : List (Uuid × ExportArtifact)) (a : ExportArtifact) :
    Bool :=
  rows.any fun newer => newer.2.dataSubjectRequestId == a.dataSubjectRequestId &&
    (a.queuedAt < newer.2.queuedAt ||
      newer.2.queuedAt == a.queuedAt && a.createdAt < newer.2.createdAt)

/-- What `get_by_dsr_id` may return: the database orders artifacts of one time as it likes. -/
structure GetByDsrId (rows : List (Uuid × ExportArtifact)) (request : Uuid)
    (listing : List (Uuid × ExportArtifact)) : Prop where
  selected : listing.Perm (rows.filter (·.2.dataSubjectRequestId == request))
  ordered : listing.Pairwise fun a b => b.2.createdAt ≤ a.2.createdAt

/-- An artifact of the request for which the health queries find no newer one. -/
structure IsCurrentArtifact (rows : List (Uuid × ExportArtifact)) (request : Uuid)
    (row : Uuid × ExportArtifact) : Prop where
  stored : row ∈ rows
  belongs : row.2.dataSubjectRequestId = request
  newest : newerArtifactForSameDsrExists rows row.2 = false

/-- One notion of current artifact: there is one if there are artifacts, there is only one, and
    it is the one that the service takes. -/
structure OneCurrentArtifact (rows : List (Uuid × ExportArtifact)) (request : Uuid) : Prop where
  some_ : ∀ row ∈ rows, row.2.dataSubjectRequestId = request →
    ∃ current, IsCurrentArtifact rows request current
  unique : ∀ a b, IsCurrentArtifact rows request a → IsCurrentArtifact rows request b → a = b
  latest : ∀ listing, GetByDsrId rows request listing → ∀ row,
    latestArtifact listing = some row ↔ IsCurrentArtifact rows request row

/-- Artifacts of the request that agree in both times have a newer one beside them. -/
def Untied (rows : List (Uuid × ExportArtifact)) (request : Uuid) : Prop :=
  ∀ a ∈ rows, ∀ b ∈ rows, a.2.dataSubjectRequestId = request →
    b.2.dataSubjectRequestId = request → a ≠ b → a.2.queuedAt = b.2.queuedAt →
    a.2.createdAt = b.2.createdAt → newerArtifactForSameDsrExists rows a.2 = true

/-! ## The two orders -/

theorem GetByDsrId.mem (listed : GetByDsrId rows request listing) :
    row ∈ listing ↔ row ∈ rows ∧ row.2.dataSubjectRequestId = request := by
  rw [listed.selected.mem_iff, List.mem_filter, beq_iff_eq]

/-- The statement of the model returns one of the listings. -/
theorem getByDsrId_artifactRows (r : Uuid) (db : Db Unit) :
    GetByDsrId (artifactRows r db) r (artifactRows r db) where
  selected := by
    refine .of_eq (List.filter_eq_self.mpr fun row member => ?_).symm
    exact beq_iff_eq.mpr (mem_artifactRows.mp member).2
  ordered := by
    have sorted := List.pairwise_insertionSort
      (fun x y : Uuid × ExportArtifact => decide (y.2.createdAt ≤ x.2.createdAt) = true)
      (db.artifacts.select () fun _ row => row.dataSubjectRequestId == r)
    exact sorted.imp of_decide_eq_true

/-- Of the artifacts that were queued last, the service takes one that was created last. -/
theorem latestArtifact_created (ordered : listing.Pairwise fun a b => b.2.createdAt ≤ a.2.createdAt)
    (latest : latestArtifact listing = some a) (member : b ∈ listing)
    (tie : b.2.queuedAt = a.2.queuedAt) : b.2.createdAt ≤ a.2.createdAt := by
  induction listing using List.reverseRecOn generalizing a with
  | nil => cases member
  | append_singleton rows row ih =>
      obtain ⟨before, -, below⟩ := List.pairwise_append.mp ordered
      rw [latestArtifact_concat] at latest
      cases found : latestArtifact rows with
      | none =>
          have empty : rows = [] := by
            by_contra some_
            simpa [found] using (latestArtifact_spec rows).2 some_
          rw [found] at latest
          cases latest
          rw [empty] at member
          exact List.mem_singleton.mp member ▸ Int.le_refl _
      | some l =>
          obtain ⟨inside, max⟩ := (latestArtifact_spec rows).1 l found
          rw [found] at latest
          dsimp only at latest
          split at latest
          · -- the last row was queued after all the others
            rename_i later
            cases latest
            rcases List.mem_append.mp member with old | new
            · exact absurd tie (Int.ne_of_lt (Int.lt_of_le_of_lt (max b old) later))
            · exact List.mem_singleton.mp new ▸ Int.le_refl _
          · cases latest
            rcases List.mem_append.mp member with old | new
            · exact ih before found old tie
            · exact below a inside b new

theorem newerArtifact_iff :
    newerArtifactForSameDsrExists rows a.2 = true ↔
      ∃ b ∈ rows, b.2.dataSubjectRequestId = a.2.dataSubjectRequestId ∧
        (a.2.queuedAt < b.2.queuedAt ∨
          b.2.queuedAt = a.2.queuedAt ∧ a.2.createdAt < b.2.createdAt) := by
  simp [newerArtifactForSameDsrExists]

/-- What the service takes is current for the health queries. -/
theorem GetByDsrId.isCurrent (listed : GetByDsrId rows request listing)
    (latest : latestArtifact listing = some a) : IsCurrentArtifact rows request a := by
  obtain ⟨member, max⟩ := (latestArtifact_spec listing).1 a latest
  obtain ⟨stored, belongs⟩ := listed.mem.mp member
  refine ⟨stored, belongs, ?_⟩
  rw [← Bool.not_eq_true, newerArtifact_iff]
  rintro ⟨b, there, same, later | ⟨tie, created⟩⟩
  · exact Int.not_lt.mpr (max b (listed.mem.mpr ⟨there, same.trans belongs⟩)) later
  · have among : b ∈ listing := listed.mem.mpr ⟨there, same.trans belongs⟩
    exact Int.not_lt.mpr (latestArtifact_created listed.ordered latest among tie) created

theorem exists_getByDsrId (rows : List (Uuid × ExportArtifact)) (request : Uuid) :
    ∃ listing, GetByDsrId rows request listing := by
  refine ⟨(rows.filter (·.2.dataSubjectRequestId == request)).insertionSort
    fun a b => decide (b.2.createdAt ≤ a.2.createdAt) = true, List.perm_insertionSort _ _, ?_⟩
  exact (List.pairwise_insertionSort _ _).imp of_decide_eq_true

/-- Two current artifacts agree in both times. -/
theorem IsCurrentArtifact.times_eq (current : IsCurrentArtifact rows request a)
    (current' : IsCurrentArtifact rows request b) :
    a.2.queuedAt = b.2.queuedAt ∧ a.2.createdAt = b.2.createdAt := by
  have below : ∀ {a b : Uuid × ExportArtifact}, IsCurrentArtifact rows request a →
      IsCurrentArtifact rows request b → b.2.queuedAt ≤ a.2.queuedAt ∧
        (b.2.queuedAt = a.2.queuedAt → b.2.createdAt ≤ a.2.createdAt) := by
    intro a b current current'
    have newest := current.newest
    rw [← Bool.not_eq_true, newerArtifact_iff] at newest
    have same := current'.belongs.trans current.belongs.symm
    refine ⟨Int.not_lt.mp fun later => ?_, fun tie => Int.not_lt.mp fun created => ?_⟩
    · exact newest ⟨b, current'.stored, same, .inl later⟩
    · exact newest ⟨b, current'.stored, same, .inr ⟨tie, created⟩⟩
  obtain ⟨queued, created⟩ := below current current'
  obtain ⟨queued', created'⟩ := below current' current
  have tie : a.2.queuedAt = b.2.queuedAt := Int.le_antisymm queued' queued
  exact ⟨tie, Int.le_antisymm (created' tie) (created tie.symm)⟩

/-- For every request and all its artifacts: the two notions agree on one artifact exactly if no
    two artifacts are tied for the place. -/
theorem oneCurrentArtifact_iff_untied (rows : List (Uuid × ExportArtifact)) (request : Uuid) :
    OneCurrentArtifact rows request ↔ Untied rows request := by
  constructor
  · intro one a stored b stored' belongs belongs' differ queued created
    by_contra newest
    rw [Bool.not_eq_true] at newest
    have newest' : newerArtifactForSameDsrExists rows b.2 = false := by
      rw [newerArtifactForSameDsrExists, ← queued, ← created, belongs', ← belongs]
      exact newest
    exact differ (one.unique a b ⟨stored, belongs, newest⟩ ⟨stored', belongs', newest'⟩)
  · intro untied
    have unique : ∀ a b, IsCurrentArtifact rows request a → IsCurrentArtifact rows request b →
        a = b := by
      intro a b current current'
      by_contra differ
      obtain ⟨queued, created⟩ := current.times_eq current'
      have superseded := untied a current.stored b current'.stored current.belongs
        current'.belongs differ queued created
      exact Bool.false_ne_true (current.newest.symm.trans superseded)
    have taken : ∀ {listing}, GetByDsrId rows request listing → ∀ row ∈ rows,
        row.2.dataSubjectRequestId = request → ∃ l, latestArtifact listing = some l := by
      intro listing listed row stored belongs
      refine Option.isSome_iff_exists.mp ((latestArtifact_spec listing).2 fun none => ?_)
      have member := listed.mem.mpr ⟨stored, belongs⟩
      simp [none] at member
    refine ⟨fun row stored belongs => ?_, unique, fun listing listed row => ⟨listed.isCurrent, ?_⟩⟩
    · obtain ⟨listing, listed⟩ := exists_getByDsrId rows request
      obtain ⟨l, latest⟩ := taken listed row stored belongs
      exact ⟨l, listed.isCurrent latest⟩
    · intro current
      obtain ⟨l, latest⟩ := taken listed row current.stored current.belongs
      rw [latest, unique l row (listed.isCurrent latest) current]

/-! ## Two artifacts of one time -/

/-- Two failed artifacts that were queued and created at the same times. -/
def tiedArtifacts : List (Uuid × ExportArtifact) :=
  [(1, exampleArtifact .failed), (2, exampleArtifact .failed)]

/-- The health queries take both for current, and the service takes the one listed first. -/
theorem tied_artifacts_both_current : ¬OneCurrentArtifact tiedArtifacts 1 := by
  intro one
  have current : ∀ row ∈ tiedArtifacts, IsCurrentArtifact tiedArtifacts 1 row := by
    intro row member
    simp only [tiedArtifacts, List.mem_cons, List.not_mem_nil, or_false] at member
    rcases member with rfl | rfl
    · exact ⟨by simp [tiedArtifacts], rfl, by decide⟩
    · exact ⟨by simp [tiedArtifacts], rfl, by decide⟩
  have same := one.unique _ _ (current (1, exampleArtifact .failed) (by simp [tiedArtifacts]))
    (current (2, exampleArtifact .failed) (by simp [tiedArtifacts]))
  cases same

end SaasTemplate.Privacy
