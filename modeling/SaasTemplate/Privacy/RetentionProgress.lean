import SaasTemplate.Privacy.RetentionPreview

/-! # Repeated retention passes

Objects that can never be deleted stay at the head of their list. Repeated passes purge every
other artifact exactly if nowhere in a list as many of them as the limit come before it.
-/

namespace SaasTemplate.Privacy.Retention

open SaasTemplate.Isolation.LimitedPass

variable {fails : StorageBackend → String → Bool} {table : Table ExportArtifact} {kind : PurgeKind}
  {limit : Nat} {row : Uuid × ExportArtifact}

/-- The storage deletes every object but some. -/
def deletesBut (fails : StorageBackend → String → Bool) (purge : ExportArtifactStoragePurge) : Bool :=
  !purge.storageBackend.any (fails · purge.storageKey)

/-- The object of the artifact can never be deleted. -/
def isStuck (fails : StorageBackend → String → Bool) (a : ExportArtifact) : Bool :=
  a.storageKey.any (fails a.storageBackend)

/-- The object of the artifact is still to be deleted. -/
def isCandidate (a : ExportArtifact) : Bool := a.isPurgeable && a.storageKey.isSome

/-- The state after the first `n` passes, of which the `i`-th is at time `now i`. -/
def afterPasses (deletes : ExportArtifactStoragePurge → Bool) (settings : RetentionSettings)
    (now : Nat → Time) (limit : Nat) (db : RetentionDb) : Nat → RetentionDb
  | 0 => db
  | n + 1 => (runPrivacyRetentionPass deletes settings (now n) limit false
      (afterPasses deletes settings now limit db n)).2

/-- After no more passes than there were candidates, all but the stuck ones are purged. -/
def ProgressesPast (fails : StorageBackend → String → Bool) (settings : RetentionSettings)
    (now : Nat → Time) (limit : Nat) (db : RetentionDb) : Prop :=
  ∃ n ≤ (db.artifacts.rows.filter fun row => isCandidate row.2).length,
    ∀ row ∈ db.artifacts.rows, isCandidate row.2 = true → isStuck fails row.2 = false →
      ∀ later ∈ (afterPasses (deletesBut fails) settings now limit db n).artifacts.rows,
        later.1 = row.1 → later.2.storageKey = none

/-- The stuck artifacts before a row in the list of a kind. -/
def stuckBefore (fails : StorageBackend → String → Bool) (kind : PurgeKind)
    (row : Uuid × ExportArtifact) (table : Table ExportArtifact) : List (Uuid × ExportArtifact) :=
  table.rows.filter fun other =>
    kind.meets other.2 && isStuck fails other.2 && decide (kind.key other < kind.key row)

/-- Fewer stuck artifacts than the limit come before any other one in its list. -/
def Unblocked (fails : StorageBackend → String → Bool) (limit : Nat) (table : Table ExportArtifact) :
    Prop :=
  ∀ kind, ∀ row ∈ table.rows, kind.meets row.2 = true → isStuck fails row.2 = false →
    (stuckBefore fails kind row table).length < limit

/-- No artifact becomes due for its expiry at these times. -/
def NoneDue (now : Nat → Time) (table : Table ExportArtifact) : Prop :=
  ∀ n, ∀ row ∈ table.rows, row.2.isExpiredReady (now n) = false

theorem isCandidate_iff {a : ExportArtifact} : isCandidate a = true ↔ ∃ kind : PurgeKind, kind.meets a = true := by
  constructor
  · intro candidate
    simp only [isCandidate, ExportArtifact.isPurgeable, Bool.and_eq_true, Bool.or_eq_true,
      beq_iff_eq] at candidate
    obtain ⟨(status | status) | ⟨status, reason⟩, stored⟩ := candidate
    · exact ⟨.expired, by simp [PurgeKind.meets, PurgeKind.status, status, stored]⟩
    · exact ⟨.failed, by simp [PurgeKind.meets, PurgeKind.status, status, stored]⟩
    · exact ⟨.cancelled, by simp [PurgeKind.meets, PurgeKind.status, status, stored, reason]⟩
  · rintro ⟨kind, meets⟩
    obtain ⟨purgeable, stored⟩ := PurgeKind.isPurgeable_of_meets meets
    rw [isCandidate, purgeable, stored, Bool.and_self]

theorem deletesBut_purgeOf (stored : row.2.storageKey.isSome = true) :
    deletesBut fails (purgeOf row) = !isStuck fails row.2 := by
  obtain ⟨key, is⟩ := Option.isSome_iff_exists.mp stored
  simp [deletesBut, purgeOf, isStuck, is]

/-! ## Places in a list -/

theorem key_injective {row other : Uuid × ExportArtifact} (same : kind.key row = kind.key other) :
    row.1 = other.1 := by
  simp only [PurgeKind.key, orderKey, EmbeddingLike.apply_eq_iff_eq, Prod.mk.injEq] at same
  exact same.2.2.2

theorem Table.nodup_rows {ρ : Type} (table : Table ρ) : table.rows.Nodup :=
  List.Nodup.of_map _ table.nodup

/-- A row is listed exactly if fewer rows of its kind than the limit come before it. -/
theorem mem_listPurgeRetry_iff (here : row ∈ table.rows) (meets : kind.meets row.2 = true) :
    row ∈ listPurgeRetry kind limit [] table ↔
      (table.rows.filter fun other => kind.meets other.2 && decide (kind.key other < kind.key row)).length
        < limit := by
  have noneExcluded : (table.rows.filter fun row => kind.meets row.2 && !([] : List Uuid).contains row.1) =
      table.rows.filter fun row => kind.meets row.2 :=
    List.filter_congr fun row _ => by simp
  have apart : ∀ b ∈ table.rows.filter (fun row => kind.meets row.2),
      ∀ c ∈ table.rows.filter (fun row => kind.meets row.2), kind.key b = kind.key c → b = c := by
    intro b inside c inside' same
    have ids := key_injective same
    exact Prod.ext ids (Table.row_unique (List.mem_filter.mp inside).1
      (ids ▸ (List.mem_filter.mp inside').1))
  have place := mem_take_sort_iff (a := row) (n := limit)
    ((Table.nodup_rows table).filter fun row => kind.meets row.2) apart
  rw [listPurgeRetry, noneExcluded]
  rw [List.filter_filter] at place
  simp only [List.mem_filter, here, meets, and_self, true_and] at place
  rw [place, List.filter_congr fun other _ => Bool.and_comm _ _]

/-! ## One pass -/

/-- What a pass deletes and clears. -/
def clearedBy (fails : StorageBackend → String → Bool) (now : Time) (limit : Nat)
    (table : Table ExportArtifact) : List (Uuid × ExportArtifact) :=
  let lists := passLists (deletesBut fails) now limit table
  lists.cancelled ++ (lists.failed ++ lists.expired)

theorem withoutStorageOf_append {rows rows' : List (Uuid × ExportArtifact)} :
    withoutStorageOf rows' (withoutStorageOf rows table) = withoutStorageOf (rows ++ rows') table := by
  refine Table.ext ?_
  simp only [withoutStorageOf, Table.update, List.map_map]
  refine List.map_congr_left fun other _ => ?_
  simp only [Function.comp_apply, List.map_append, List.mem_append]
  by_cases first : other.1 ∈ rows.map (·.1)
  · simp [first, ExportArtifact.withoutStorage, ExportArtifact.withoutMetadata]
  · have out : decide (other.1 ∈ rows.map (·.1)) = false := decide_eq_false first
    have whole : decide (other.1 ∈ rows.map (·.1) ∨ other.1 ∈ rows'.map (·.1)) =
        decide (other.1 ∈ rows'.map (·.1)) := by
      simp only [first, false_or]
    rw [out, whole, if_neg Bool.false_ne_true]

theorem expiredOf_nil : expiredOf [] table = table := by
  refine Table.ext ?_
  simp [expiredOf, Table.update]

theorem listExpiredReady_nil {now : Time}
    (none_due : ∀ row ∈ table.rows, row.2.isExpiredReady now = false) :
    listExpiredReady now limit table = [] := by
  have empty : (table.rows.filter fun row => row.2.isExpiredReady now) = [] :=
    List.filter_eq_nil_iff.mpr fun row here => by simp [none_due row here]
  simp [listExpiredReady, Table.select, empty]

theorem pass_artifacts {settings : RetentionSettings} {now : Time} {db : RetentionDb}
    (positive : 1 ≤ limit) (none_due : ∀ row ∈ db.artifacts.rows, row.2.isExpiredReady now = false) :
    (runPrivacyRetentionPass (deletesBut fails) settings now limit false db).2.artifacts =
      withoutStorageOf (clearedBy fails now limit db.artifacts) db.artifacts := by
  have same : (runPrivacyRetentionPass (deletesBut fails) settings now limit false db).2 =
      (runExportRetention (deletesBut fails) now limit
        (runNonExportRetention settings now limit false db).2).db := by
    rw [runPrivacyRetentionPass, if_neg (by omega), if_neg Bool.false_ne_true]
    simp only []
    split <;> rfl
  rw [same, (runExportRetention_eq _ now limit _).2, runNonExportRetention_artifacts]
  have ready : (passLists (deletesBut fails) now limit db.artifacts).ready = [] :=
    listExpiredReady_nil none_due
  rw [ready, expiredOf_nil, withoutStorageOf_append, withoutStorageOf_append]
  rfl

theorem mem_clearedBy {now : Time} (member : row ∈ clearedBy fails now limit table) :
    ∃ kind : PurgeKind, ∃ n ≤ limit, row ∈ listPurgeRetry kind n [] table ∧
      isStuck fails row.2 = false := by
  have deleted : ∀ {kind n}, row ∈ deletedOf (deletesBut fails) kind n table →
      row ∈ listPurgeRetry kind n [] table ∧ isStuck fails row.2 = false := by
    intro kind n inside
    obtain ⟨listed, deletes⟩ := List.mem_filter.mp inside
    have meets := (mem_listPurgeRetry listed).2
    rw [deletesBut_purgeOf (PurgeKind.isPurgeable_of_meets meets).2] at deletes
    exact ⟨listed, by simpa using deletes⟩
  rcases List.mem_append.mp member with cancelled | rest
  · exact ⟨.cancelled, limit, le_rfl, deleted cancelled⟩
  · rcases List.mem_append.mp rest with failed | expired
    · exact ⟨.failed, _, Nat.sub_le _ _, deleted failed⟩
    · exact ⟨.expired, _, Nat.sub_le _ _, deleted expired⟩

theorem clearedBy_spec {now : Time} (member : row ∈ clearedBy fails now limit table) :
    row ∈ table.rows ∧ isCandidate row.2 = true ∧ isStuck fails row.2 = false := by
  obtain ⟨kind, n, -, listed, free⟩ := mem_clearedBy member
  obtain ⟨here, meets⟩ := mem_listPurgeRetry listed
  exact ⟨here, isCandidate_iff.mpr ⟨kind, meets⟩, free⟩

/-- Clearing what is not stuck changes no number of stuck rows before a row. -/
theorem stuckBefore_cleared {now : Time} (kind : PurgeKind) (row : Uuid × ExportArtifact) :
    stuckBefore fails kind row (withoutStorageOf (clearedBy fails now limit table) table) =
      stuckBefore fails kind row table := by
  unfold stuckBefore withoutStorageOf
  rw [Table.filter_update]
  · intro other here inside
    have member := Table.row_of_mem_ids (fun o m => (clearedBy_spec m).1) here (of_decide_eq_true inside)
    rw [(clearedBy_spec member).2.2, Bool.and_false, Bool.false_and]
  · intro other _ _
    rw [not_meets_withoutStorage, Bool.false_and, Bool.false_and]

/-- A row that is not cleared stays, and nothing else has storage. -/
theorem mem_withoutStorageOf {rows : List (Uuid × ExportArtifact)}
    (member : row ∈ (withoutStorageOf rows table).rows) :
    (row ∈ table.rows ∧ row.1 ∉ rows.map (·.1)) ∨ row.2.storageKey = none := by
  obtain ⟨before, here, is⟩ := List.mem_map.mp member
  by_cases inside : before.1 ∈ rows.map (·.1)
  · rw [if_pos (decide_eq_true inside)] at is
    exact .inr (by rw [← is]; rfl)
  · rw [if_neg (by simpa using inside)] at is
    exact .inl ⟨is ▸ here, is ▸ inside⟩

/-! ## Progress -/

/-- The candidates that are not stuck. -/
def openCandidates (fails : StorageBackend → String → Bool) (table : Table ExportArtifact) :
    List (Uuid × ExportArtifact) :=
  table.rows.filter fun row => isCandidate row.2 && !isStuck fails row.2

theorem mem_openCandidates : row ∈ openCandidates fails table ↔
    row ∈ table.rows ∧ isCandidate row.2 = true ∧ isStuck fails row.2 = false := by
  simp [openCandidates]

/-- Where nothing stuck stands in its way, the first open candidate of a kind is listed. -/
theorem exists_deleted (unblocked : Unblocked fails limit table)
    (some_ : ∃ row ∈ table.rows, kind.meets row.2 = true ∧ isStuck fails row.2 = false) :
    deletedOf (deletesBut fails) kind limit table ≠ [] := by
  obtain ⟨first, here, ⟨meets, free⟩, least⟩ := exists_least kind.key some_
  have onlyStuck : (table.rows.filter fun other =>
      kind.meets other.2 && decide (kind.key other < kind.key first)) =
        stuckBefore fails kind first table := by
    refine List.filter_congr fun other there => ?_
    cases meets' : kind.meets other.2 with
    | false => simp
    | true =>
        cases stuck : isStuck fails other.2 with
        | true => simp
        | false =>
            have notBefore : ¬ kind.key other < kind.key first :=
              not_lt.mpr (least other there ⟨meets', stuck⟩)
            simp [notBefore]
  have listed : first ∈ listPurgeRetry kind limit [] table := by
    rw [mem_listPurgeRetry_iff here meets, onlyStuck]
    exact unblocked kind first here meets free
  have stored := (PurgeKind.isPurgeable_of_meets meets).2
  exact List.ne_nil_of_mem (List.mem_filter.mpr ⟨listed, by rw [deletesBut_purgeOf stored, free]; rfl⟩)

theorem clearedBy_ne_nil {now : Time} (unblocked : Unblocked fails limit table)
    (none_due : ∀ row ∈ table.rows, row.2.isExpiredReady now = false)
    (some_ : openCandidates fails table ≠ []) : clearedBy fails now limit table ≠ [] := by
  obtain ⟨row, member⟩ := List.exists_mem_of_ne_nil _ some_
  obtain ⟨here, candidate, free⟩ := mem_openCandidates.mp member
  obtain ⟨kind, meets⟩ := isCandidate_iff.mp candidate
  have deleted := exists_deleted unblocked ⟨row, here, meets, free⟩
  have ready : ∀ n, listExpiredReady now n table = [] := fun n => listExpiredReady_nil none_due
  intro nothing
  obtain ⟨noCancelled, rest⟩ := List.append_eq_nil_iff.mp nothing
  obtain ⟨noFailed, noExpired⟩ := List.append_eq_nil_iff.mp rest
  -- While the lists before it are empty, a list has the whole limit.
  simp only [passLists] at noCancelled noFailed noExpired
  rw [noCancelled, List.length_nil, Nat.sub_zero] at noFailed
  simp only [noCancelled, noFailed, ready, List.length_nil, Nat.add_zero, Nat.sub_zero] at noExpired
  cases kind with
  | cancelled => exact deleted noCancelled
  | failed => exact deleted noFailed
  | expired => exact deleted noExpired

/-- A pass that clears something leaves fewer open candidates. -/
theorem openCandidates_cleared {now : Time} (some_ : clearedBy fails now limit table ≠ []) :
    (openCandidates fails (withoutStorageOf (clearedBy fails now limit table) table)).length <
      (openCandidates fails table).length := by
  have remain : openCandidates fails (withoutStorageOf (clearedBy fails now limit table) table) =
      (openCandidates fails table).filter fun row =>
        !decide (row.1 ∈ (clearedBy fails now limit table).map (·.1)) := by
    generalize clearedBy fails now limit table = rows
    unfold openCandidates withoutStorageOf Table.update
    rw [List.filter_filter]
    simp only []
    induction table.rows with
    | nil => rfl
    | cons row rest ih =>
        rw [List.map_cons, List.filter_cons, List.filter_cons, ih]
        by_cases inside : row.1 ∈ rows.map (·.1)
        · have gone : isCandidate row.2.withoutStorage = false := by
            simp [isCandidate, ExportArtifact.withoutStorage]
          rw [if_pos (decide_eq_true inside), gone, decide_eq_true inside]
          rfl
        · rw [decide_eq_false inside, if_neg Bool.false_ne_true, Bool.not_false, Bool.true_and]
  rw [remain]
  obtain ⟨row, member⟩ := List.exists_mem_of_ne_nil _ some_
  refine List.length_filter_lt_length_iff_exists.mpr ⟨row, ?_, ?_⟩
  · exact mem_openCandidates.mpr (clearedBy_spec member)
  · have inside : row.1 ∈ (clearedBy fails now limit table).map (·.1) := List.mem_map_of_mem member
    simp [inside]

theorem Unblocked.cleared {now : Time} (unblocked : Unblocked fails limit table) :
    Unblocked fails limit (withoutStorageOf (clearedBy fails now limit table) table) := by
  intro kind row member meets free
  rw [stuckBefore_cleared]
  rcases mem_withoutStorageOf member with ⟨here, -⟩ | none_stored
  · exact unblocked kind row here meets free
  · have stored := (PurgeKind.isPurgeable_of_meets meets).2
    rw [none_stored] at stored
    cases stored

theorem noneDue_cleared {now : Nat → Time} {rows : List (Uuid × ExportArtifact)}
    (none_due : NoneDue now table) : NoneDue now (withoutStorageOf rows table) := by
  intro n row member
  obtain ⟨before, here, is⟩ := List.mem_map.mp member
  have due := none_due n before here
  rw [← is]
  split
  · exact due
  · exact due

/-! ## Runs -/

section Runs

variable (settings : RetentionSettings) {now : Nat → Time} {db : RetentionDb}

/-- After any number of passes, a row is as it was or has no storage. -/
theorem afterPasses_rows (fails : StorageBackend → String → Bool) (positive : 1 ≤ limit)
    (none_due : NoneDue now db.artifacts) (n : Nat) :
    NoneDue now (afterPasses (deletesBut fails) settings now limit db n).artifacts ∧
      ∀ row ∈ (afterPasses (deletesBut fails) settings now limit db n).artifacts.rows,
        row ∈ db.artifacts.rows ∨ row.2.storageKey = none := by
  induction n with
  | zero => exact ⟨none_due, fun row member => .inl member⟩
  | succ n ih =>
      obtain ⟨quiet, rows⟩ := ih
      rw [afterPasses, pass_artifacts positive (quiet n)]
      refine ⟨noneDue_cleared quiet, fun row member => ?_⟩
      rcases mem_withoutStorageOf member with ⟨here, -⟩ | none_stored
      · exact rows row here
      · exact .inr none_stored

/-- Each pass brings the open candidates down by one, as long as there are any. -/
theorem openCandidates_afterPasses (positive : 1 ≤ limit) (none_due : NoneDue now db.artifacts)
    (unblocked : Unblocked fails limit db.artifacts) (n : Nat) :
    Unblocked fails limit (afterPasses (deletesBut fails) settings now limit db n).artifacts ∧
      (openCandidates fails (afterPasses (deletesBut fails) settings now limit db n).artifacts).length +
        n ≤ max (openCandidates fails db.artifacts).length n := by
  induction n with
  | zero => exact ⟨unblocked, by simp [afterPasses]⟩
  | succ n ih =>
      obtain ⟨still, bound⟩ := ih
      have quiet := (afterPasses_rows settings fails positive none_due n).1
      rw [afterPasses, pass_artifacts positive (quiet n)]
      refine ⟨still.cleared, ?_⟩
      generalize (afterPasses (deletesBut fails) settings now limit db n).artifacts = table
        at still bound quiet ⊢
      by_cases none_open : openCandidates fails table = []
      · have fewer : (openCandidates fails
            (withoutStorageOf (clearedBy fails (now n) limit table) table)).length = 0 := by
          by_cases nothing : clearedBy fails (now n) limit table = []
          · have same : withoutStorageOf [] table = table := Table.ext (by simp [withoutStorageOf, Table.update])
            rw [nothing, same, none_open, List.length_nil]
          · have less := openCandidates_cleared nothing
            rw [none_open, List.length_nil] at less
            omega
        omega
      · have less := openCandidates_cleared (clearedBy_ne_nil still (quiet n) none_open)
        have some_ : 0 < (openCandidates fails table).length := List.length_pos_of_ne_nil none_open
        omega

/-- A row behind as many stuck rows as the limit is never purged. -/
theorem blocked_afterPasses (positive : 1 ≤ limit) (none_due : NoneDue now db.artifacts)
    (here : row ∈ db.artifacts.rows) (meets : kind.meets row.2 = true)
    (blocked : limit ≤ (stuckBefore fails kind row db.artifacts).length) (n : Nat) :
    row ∈ (afterPasses (deletesBut fails) settings now limit db n).artifacts.rows ∧
      limit ≤ (stuckBefore fails kind row
        (afterPasses (deletesBut fails) settings now limit db n).artifacts).length := by
  induction n with
  | zero => exact ⟨here, blocked⟩
  | succ n ih =>
      obtain ⟨still, behind⟩ := ih
      have quiet := (afterPasses_rows settings fails positive none_due n).1
      rw [afterPasses, pass_artifacts positive (quiet n), stuckBefore_cleared]
      refine ⟨Table.mem_update_of_not still (decide_eq_false fun inside => ?_), behind⟩
      have member := Table.row_of_mem_ids (fun o m => (clearedBy_spec m).1) still inside
      obtain ⟨kind', n', bound, listed, -⟩ := mem_clearedBy member
      obtain ⟨-, meets'⟩ := mem_listPurgeRetry listed
      obtain rfl : kind' = kind := PurgeKind.status_injective
        ((PurgeKind.status_of_meets meets').symm.trans (PurgeKind.status_of_meets meets))
      have place := (mem_listPurgeRetry_iff still meets).mp listed
      have sub : (stuckBefore fails kind' row
          (afterPasses (deletesBut fails) settings now limit db n).artifacts).length ≤
            ((afterPasses (deletesBut fails) settings now limit db n).artifacts.rows.filter
              fun other => kind'.meets other.2 && decide (kind'.key other < kind'.key row)).length := by
        refine (List.monotone_filter_right _ fun other both => ?_).length_le
        simp only [Bool.and_eq_true] at both ⊢
        exact ⟨both.1.1, both.2⟩
      omega

/-- Repeated passes reach every artifact that can be purged exactly if nowhere as many stuck ones
as the limit come before it. -/
theorem retention_progresses_iff (positive : 1 ≤ limit) (none_due : NoneDue now db.artifacts) :
    ProgressesPast fails settings now limit db ↔ Unblocked fails limit db.artifacts := by
  constructor
  · rintro ⟨n, -, purged⟩ kind row here meets free
    by_contra blocked
    have still := (blocked_afterPasses settings positive none_due here meets
      (Nat.not_lt.mp blocked) n).1
    have gone := purged row here (isCandidate_iff.mpr ⟨kind, meets⟩) free row still rfl
    have stored := (PurgeKind.isPurgeable_of_meets meets).2
    rw [gone] at stored
    cases stored
  · intro unblocked
    refine ⟨(openCandidates fails db.artifacts).length, ?_, ?_⟩
    · refine (List.monotone_filter_right _ fun row both => ?_).length_le
      exact (Bool.and_eq_true_iff.mp both).1
    · intro row here candidate free later there same
      have bound := (openCandidates_afterPasses settings positive none_due unblocked
        (openCandidates fails db.artifacts).length).2
      have empty : openCandidates fails (afterPasses (deletesBut fails) settings now limit db
          (openCandidates fails db.artifacts).length).artifacts = [] :=
        List.length_eq_zero_iff.mp (by omega)
      rcases (afterPasses_rows settings fails positive none_due _).2 later there with before | none_stored
      · obtain rfl : later = row := Prod.ext same (Table.row_unique (same ▸ before) here)
        have still := mem_openCandidates.mpr ⟨there, candidate, free⟩
        rw [empty] at still
        cases still
      · exact none_stored

end Runs

/-! ## One object that cannot be deleted -/

theorem exampleDb_noneDue : NoneDue (fun _ => 10) exampleDb.artifacts := by
  have each : ∀ row ∈ exampleDb.artifacts.rows, row.2.isExpiredReady 10 = false := by decide
  exact fun _ => each

theorem retention_progresses_example :
    NoneDue (fun _ => 10) exampleDb.artifacts ∧
      (ProgressesPast (fun _ _ => false) exampleSettings (fun _ => 10) 1 exampleDb ↔
        Unblocked (fun _ _ => false) 1 exampleDb.artifacts) :=
  ⟨exampleDb_noneDue, retention_progresses_iff exampleSettings (by decide) exampleDb_noneDue⟩

/-- Passes of one artifact each try the first object again and again. -/
theorem stuck_object_starves_list :
    ¬ ∀ (fails : StorageBackend → String → Bool) (settings : RetentionSettings) (now : Nat → Time)
      (limit : Nat) (db : RetentionDb), 1 ≤ limit → NoneDue now db.artifacts →
        ProgressesPast fails settings now limit db := by
  intro claim
  obtain ⟨n, -, purged⟩ := claim (fun _ key => key == "a") exampleSettings (fun _ => 10) 1 exampleDb
    (by decide) exampleDb_noneDue
  have here : (2, expiredArtifact "b" 2) ∈ exampleDb.artifacts.rows := by decide
  have meets : PurgeKind.expired.meets (expiredArtifact "b" 2) = true := by decide
  have blocked : 1 ≤ (stuckBefore (fun _ key => key == "a") .expired (2, expiredArtifact "b" 2)
      exampleDb.artifacts).length := by decide
  have still := (blocked_afterPasses exampleSettings (le_refl 1) exampleDb_noneDue here meets blocked
    n).1
  have gone := purged _ here (by decide) (by decide) _ still rfl
  cases gone

end SaasTemplate.Privacy.Retention
