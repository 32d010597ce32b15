import SaasTemplate.Privacy.ExecutionMirror

/-! # Batches of artifacts

An operation may work on many artifacts, and several of them may belong to one request. Here
is what holds half way through: every artifact that has changed belongs to a request that is
still to be written, or that mirrors its artifacts by now.
-/

namespace SaasTemplate.Privacy

open SaasTemplate.Isolation SaasTemplate.Isolation.Machine

variable {start db db' : Db Unit} {id r : Uuid} {a : ExportArtifact}

/-! ## The place of an artifact among those of its request -/

/-- What decides which artifact of which request is the latest. -/
def ExportArtifact.place (a : ExportArtifact) : Uuid × Time × Time :=
  (a.dataSubjectRequestId, a.queuedAt, a.createdAt)

/-- The same artifacts, each in its place. -/
structure Placed (start db : Db Unit) : Prop where
  clock : db.clock = start.clock
  keys : db.artifacts.keys = start.artifacts.keys
  places : ∀ k, (db.artifact k).map ExportArtifact.place = (start.artifact k).map ExportArtifact.place

theorem Placed.refl (db : Db Unit) : Placed db db := ⟨rfl, rfl, fun _ => rfl⟩

theorem Placed.trans {middle : Db Unit} (h : Placed start middle) (h' : Placed middle db) :
    Placed start db :=
  ⟨h'.clock.trans h.clock, h'.keys.trans h.keys, fun k => (h'.places k).trans (h.places k)⟩

theorem ArtifactWritten.placed {row : ExportArtifact} (h : ArtifactWritten id a db db')
    (seen : db.artifact id = some row) (place : a.place = row.place) : Placed db db' := by
  refine ⟨h.clock, h.keys, fun k => ?_⟩
  by_cases same : k = id
  · subst same
    rw [h.same, seen, Option.map_some, Option.map_some, place]
  · rw [h.others k same]

theorem Synced.placed (h : Synced r db db') : Placed db db' :=
  ⟨h.clock, by rw [h.artifacts], fun k => by rw [Db.artifact, h.artifacts]⟩

theorem Placed.row (h : Placed start db) (seen : db.artifact id = some a) :
    ∃ b, start.artifact id = some b ∧ b.place = a.place := by
  have same := h.places id
  rw [seen, Option.map_some] at same
  exact Option.map_eq_some_iff.mp same.symm

/-- The rows of a request, seen as places. -/
def placesOf (r : Uuid) (db : Db Unit) : List (Uuid × Uuid × Time × Time) :=
  (artifactRows r db).map fun row => (row.1, row.2.place)

theorem Placed.placesOf_eq (h : Placed start db) (r : Uuid) : placesOf r db = placesOf r start := by
  have sorted : ∀ db : Db Unit, placesOf r db =
      (db.artifacts.keys.filterMap fun k =>
        (((db.artifact k).map ExportArtifact.place).filter (·.1 == r)).map fun p => (k, p)).insertionSort
          fun x y => decide (y.2.2.2 ≤ x.2.2.2) = true := by
    intro db
    refine (List.map_insertionSort
      (fun x y : Uuid × ExportArtifact => decide (y.2.createdAt ≤ x.2.createdAt) = true)
      (fun x y : Uuid × Uuid × Time × Time => decide (y.2.2.2 ≤ x.2.2.2) = true)
      _ _ fun _ _ _ _ => Iff.rfl).trans (congrArg _ ?_)
    rw [Table.select, List.map_filterMap]
    refine List.filterMap_congr fun k _ => ?_
    change (((db.artifacts.view () k).filter fun b => b.dataSubjectRequestId == r).map _).map _ = _
    cases found : db.artifacts.view () k with
    | none => simp [Db.artifact, found]
    | some b =>
        by_cases mine : b.dataSubjectRequestId = r <;>
          simp [Db.artifact, found, ExportArtifact.place, Option.filter_some, mine]
  rw [sorted, sorted, h.keys]
  simp only [h.places]

/-- The latest artifact depends on the places only. -/
theorem latestArtifact_congr {rows rows' : List (Uuid × ExportArtifact)}
    (same : rows.map (fun row => (row.1, row.2.place)) = rows'.map fun row => (row.1, row.2.place)) :
    (latestArtifact rows).map (·.1) = (latestArtifact rows').map (·.1) := by
  suffices h : (latestArtifact rows).map (fun row => (row.1, row.2.place)) =
      (latestArtifact rows').map fun row => (row.1, row.2.place) by
    simpa [Function.comp_def] using congrArg (Option.map (·.1)) h
  induction rows using List.reverseRecOn generalizing rows' with
  | nil => simp [List.map_eq_nil_iff.mp same.symm]
  | append_singleton rows row ih =>
      rw [List.map_append] at same
      obtain ⟨front, back, rfl, fronts, backs⟩ := List.map_eq_append_iff.mp same.symm
      obtain ⟨row', rfl, last⟩ := List.map_eq_singleton_iff.mp backs
      have earlier := ih fronts.symm
      simp only [latestArtifact, List.foldl_append, List.foldl_cons, List.foldl_nil] at earlier ⊢
      generalize List.foldl _ none rows = l at earlier ⊢
      generalize List.foldl _ none front = l' at earlier ⊢
      have queued : row.2.queuedAt = row'.2.queuedAt :=
        congrArg (fun p : Uuid × Uuid × Time × Time => p.2.2.1) last.symm
      cases l with
      | none =>
          cases l' with
          | none => simpa using last.symm
          | some x' => simp at earlier
      | some x =>
          cases l' with
          | none => simp at earlier
          | some x' =>
              have before : x.2.queuedAt = x'.2.queuedAt :=
                congrArg (fun p : Uuid × Uuid × Time × Time => p.2.2.1) (Option.some.inj earlier)
              dsimp only
              rw [queued, before]
              split
              · simpa using last.symm
              · exact earlier

/-- The latest artifact stays the latest while all keep their places. -/
theorem Placed.latestOf (h : Placed start db) {l : Uuid × ExportArtifact}
    (latest : latestOf r db = some l) : ∃ b, latestOf r start = some (l.1, b) := by
  have same := latestArtifact_congr (h.placesOf_eq r)
  rw [show latestArtifact (artifactRows r db) = some l from latest] at same
  obtain ⟨⟨k, b⟩, is, key⟩ := Option.map_eq_some_iff.mp same.symm
  dsimp only at key
  exact ⟨b, key ▸ is⟩

/-! ## Half way through an operation -/

/-- An operation that began in `start` has come to `db`, and will still write the requests that
    are `pending`. -/
structure Within (start : Db Unit) (pending : Uuid → Prop) (db : Db Unit) : Prop where
  regular : Regular db
  placed : Placed start db
  kept : ∀ id a, db.artifact id = some a → start.artifact id = some a ∨
    pending a.dataSubjectRequestId ∨ Mirrors a.dataSubjectRequestId db

variable {P : Uuid → Prop}

theorem within_start (regular : Regular start) : Within start P start :=
  ⟨regular, .refl start, fun _ _ seen => .inl seen⟩

theorem Within.mono {P' : Uuid → Prop} (h : Within start P db)
    (more : ∀ r, P r → P' r) : Within start P' db :=
  ⟨h.regular, h.placed, fun id a seen => (h.kept id a seen).imp_right (Or.imp_left (more _))⟩

theorem Within.written {row : ExportArtifact} (h : Within start P db)
    (written : ArtifactWritten id a db db') (seen : db.artifact id = some row)
    (ok : ArtifactOk db.clock a) (place : a.place = row.place)
    (awaited : P a.dataSubjectRequestId) : Within start P db' := by
  have request : a.dataSubjectRequestId = row.dataSubjectRequestId := congrArg (·.1) place
  refine ⟨written.regular h.regular seen ok request, h.placed.trans (written.placed seen place),
    fun k b here => ?_⟩
  by_cases same : k = id
  · subst same
    cases Option.some.inj (written.same.symm.trans here)
    exact .inr (.inl awaited)
  · rcases h.kept k b ((written.others k same).symm.trans here) with old | wait | mirrors
    · exact .inl old
    · exact .inr (.inl wait)
    · by_cases mine : b.dataSubjectRequestId = row.dataSubjectRequestId
      · exact .inr (.inl (mine.trans request.symm ▸ awaited))
      · exact .inr (.inr (written.mirrors seen request mine mirrors))

/-- The rows as they are, whoever has locked them. -/
theorem artifactRows_congr (keys : db'.artifacts.keys = db.artifacts.keys)
    (same : ∀ k, db'.artifact k = db.artifact k) : artifactRows r db' = artifactRows r db := by
  unfold artifactRows sortedRows
  rw [Table.select_congr keys fun k => by
    rw [show db'.artifacts.view () k = db.artifacts.view () k from same k]]

theorem Mirrors.congr (keys : db'.artifacts.keys = db.artifacts.keys)
    (same : ∀ k, db'.artifact k = db.artifact k) (clock : db'.clock = db.clock)
    (requests : ∀ k, db'.request k = db.request k) (mirrors : Mirrors r db) : Mirrors r db' := by
  obtain ⟨row, here, shows⟩ := mirrors
  refine ⟨row, (requests r).trans here, ?_⟩
  rw [derivedState, latestOf, artifactRows_congr keys same, clock]
  exact shows

theorem Regular.congr (same : ∀ k, db'.artifact k = db.artifact k) (clock : db'.clock = db.clock)
    (requests : ∀ k, db'.request k = db.request k) (regular : Regular db) : Regular db' :=
  ⟨fun k b here => clock ▸ regular.artifacts k b ((same k).symm.trans here),
    fun k b here => requests _ ▸ regular.requests k b ((same k).symm.trans here)⟩

theorem Within.locked (h : Within start P db) (locked : ArtifactWritten id a db db')
    (seen : db.artifact id = some a) : Within start P db' := by
  have same := locked.unchanged seen
  have requests : ∀ k, db'.request k = db.request k := fun k => by rw [Db.request, locked.requests]
  refine ⟨h.regular.congr same locked.clock requests, h.placed.trans (locked.placed seen rfl),
    fun k b here => ?_⟩
  exact (h.kept k b ((same k).symm.trans here)).imp_right
    (Or.imp_right (Mirrors.congr locked.keys same locked.clock requests))

theorem Within.synced (h : Within start P db) (synced : Synced r db db') :
    Within start (fun k => P k ∧ k ≠ r) db' := by
  refine ⟨synced.regular h.regular, h.placed.trans synced.placed, fun k b here => ?_⟩
  rw [Db.artifact, synced.artifacts] at here
  by_cases mine : b.dataSubjectRequestId = r
  · exact .inr (.inr (mine ▸ synced.mirrors))
  · exact (h.kept k b here).imp_right (Or.imp (fun wait => ⟨wait, mine⟩) synced.mirrors_other)

/-! ## Batches -/

/-- The first rows that a query finds. -/
def batchOf (limit : Nat) (p : ExportArtifact → Bool)
    (before : ExportArtifact → ExportArtifact → Bool) (db : Db Unit) :
    List (Uuid × ExportArtifact) :=
  (sortedRows () db.artifacts p before).take limit

section Batch

variable {limit : Nat} {p : ExportArtifact → Bool} {before : ExportArtifact → ExportArtifact → Bool}
  {batch : List (Uuid × ExportArtifact)}

theorem mem_batchOf {row : Uuid × ExportArtifact} (member : row ∈ batchOf limit p before db) :
    db.artifact row.1 = some row.2 ∧ p row.2 = true :=
  mem_sortedRows.mp (List.mem_of_mem_take member)

theorem batchOf_nodup : ((batchOf limit p before db).map (·.1)).Nodup := by
  have sorted : ((sortedRows () db.artifacts p before).map (·.1)).Nodup :=
    (((List.perm_insertionSort _ _).map _).nodup_iff).mpr (Table.select_nodup () _ db.artifacts)
  exact ((List.take_sublist limit _).map _).nodup sorted

theorem lockUpTo_ensures {lock : Uuid → Tx (Option ExportArtifact)}
    (locks : ∀ id a db, db.artifact id = some a → p a = true →
      (machine Unit).Ensures () (lock id)
        (fun out db' => out = some a ∧ ArtifactWritten id a db db') db)
    (within : Within start P db) :
    (machine Unit).Ensures () (lockUpTo limit (artifactIds () p before db) lock)
      (fun rows db' => rows = batchOf limit p before db ∧ Within start P db' ∧
        ∀ k, db'.artifact k = db.artifact k) db := by
  refine ensures_collectUpTo (A := fun db' => Within start P db' ∧
    ∀ k, db'.artifact k = db.artifact k) ?_ ⟨within, fun _ => rfl⟩
  rintro ⟨k, b⟩ member middle ⟨within, same⟩
  obtain ⟨seen, holds⟩ := mem_sortedRows.mp member
  have here : middle.artifact k = some b := (same k).trans seen
  refine (locks k b middle here holds).bind fun out after ⟨answer, locked⟩ => ensures_pure ?_
  refine ⟨by simp [answer], within.locked locked here, fun j => ?_⟩
  exact (locked.unchanged here j).trans (same j)

theorem flushEach_ensures {writer : Writer} {change : Uuid × ExportArtifact → ExportArtifact}
    (within : Within start P db) (loaded : Current batch db)
    (nodup : (batch.map (·.1)).Nodup)
    (fine : ∀ row ∈ batch, ArtifactOk start.clock (change row) ∧ (change row).place = row.2.place ∧
      P row.2.dataSubjectRequestId) :
    (machine Unit).Ensures ()
      (Prog.forEach batch fun row => sql (.flushArtifact writer row.1 row.2 (change row)))
      (fun _ db' => Within start P db' ∧
        (∀ row ∈ batch, db'.artifact row.1 = some (change row)) ∧
        ∀ k, k ∉ batch.map (·.1) → db'.artifact k = db.artifact k) db := by
  induction batch generalizing db with
  | nil => exact ensures_pure ⟨within, by simp, fun _ _ => rfl⟩
  | cons row rest ih =>
      have here := loaded row (by simp)
      obtain ⟨ok, place, awaited⟩ := fine row (by simp)
      rw [List.map_cons, List.nodup_cons] at nodup
      have request : (change row).dataSubjectRequestId = row.2.dataSubjectRequestId :=
        congrArg (·.1) place
      refine ensures_bind (ensures_stmt fun u middle executed => ?_)
      have written := flushArtifact_written here executed
      have apart : ∀ other ∈ rest, other.1 ≠ row.1 := fun other member same =>
        nodup.1 (same ▸ List.mem_map_of_mem member)
      refine (ih (within.written written here (within.placed.clock ▸ ok) place (request ▸ awaited))
        (fun other member => ?_) nodup.2 fun other member => fine other (by simp [member])).mono ?_
      · exact (written.others _ (apart other member)).trans (loaded other (by simp [member]))
      · rintro - after ⟨within, done, others⟩
        refine ⟨within, fun other member => ?_, fun k absent => ?_⟩
        · rcases List.mem_cons.mp member with rfl | later
          · exact (others _ nodup.1).trans written.same
          · exact done other later
        · rw [List.map_cons, List.mem_cons, not_or] at absent
          exact (others k absent.2).trans (written.others k absent.1)

/-- Writing the request of each artifact of a batch leaves none to be written. -/
theorem syncEach_ensures {sync : Uuid × ExportArtifact → Tx Unit}
    (round : ∀ row ∈ batch, ∀ middle : Db Unit, Regular middle → middle.artifacts = db.artifacts →
      middle.clock = db.clock → (machine Unit).Ensures () (sync row)
        (fun _ db' => Synced row.2.dataSubjectRequestId middle db') middle)
    (within : Within start (fun r => ∃ row ∈ batch, row.2.dataSubjectRequestId = r) db) :
    (machine Unit).Ensures () (Prog.forEach batch sync)
      (fun _ db' => Within start (fun _ => False) db') db := by
  refine (ensures_forEach (A := fun rest middle => (∀ row ∈ rest, row ∈ batch) ∧
    middle.artifacts = db.artifacts ∧ middle.clock = db.clock ∧
    Within start (fun r => ∃ row ∈ rest, row.2.dataSubjectRequestId = r) middle) ?_
    ⟨fun _ member => member, rfl, rfl, within⟩).mono ?_
  · rintro row rest middle ⟨among, same, clock, within⟩
    refine (round row (among row (by simp)) middle within.regular same clock).mono
      fun u after synced => ⟨fun other member => among other (by simp [member]),
        synced.artifacts.trans same, synced.clock.trans clock, (within.synced synced).mono ?_⟩
    rintro r ⟨⟨other, member, rfl⟩, left⟩
    rcases List.mem_cons.mp member with rfl | later
    · exact absurd rfl left
    · exact ⟨other, later, rfl⟩
  · rintro - after ⟨-, -, -, within⟩
    exact within.mono fun _ waits => by simp at waits

end Batch

end SaasTemplate.Privacy
