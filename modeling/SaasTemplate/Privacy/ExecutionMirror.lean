import SaasTemplate.Isolation.Alone
import SaasTemplate.Privacy.ArtifactServices

/-! # Keeping the execution status in line with the artifacts

Operations on artifacts that run one after the other. Each writes the execution status of the
requests of its artifacts, given or derived, and here is what that leaves in the request
compared with what the latest artifact says at that time.
-/

namespace SaasTemplate.Privacy

open SaasTemplate.Isolation SaasTemplate.Isolation.Machine

variable {db db' : Db Unit} {id r : Uuid} {a : ExportArtifact}

/-- The row that the only client sees. -/
abbrev Db.artifact (db : Db Unit) (id : Uuid) : Option ExportArtifact := db.artifacts.view () id

abbrev Db.request (db : Db Unit) (id : Uuid) : Option DataSubjectRequest := db.requests.view () id

/-- The artifacts of a request, as the services read them. -/
def artifactRows (r : Uuid) (db : Db Unit) : List (Uuid × ExportArtifact) :=
  sortedRows () db.artifacts (·.dataSubjectRequestId == r) fun a b => b.createdAt ≤ a.createdAt

def latestOf (r : Uuid) (db : Db Unit) : Option (Uuid × ExportArtifact) :=
  latestArtifact (artifactRows r db)

/-- What `_execution_state_for_dsr` says now. -/
def derivedState (r : Uuid) (db : Db Unit) : ExecutionState :=
  executionStateOf db.clock (latestOf r db)

/-- The request shows this state. -/
structure Shows (state : ExecutionState) (row : DataSubjectRequest) : Prop where
  status : row.executionStatus = state.status
  reason : row.executionFailureReasonCode = state.failureReasonCode
  detail : row.executionFailureDetail = state.failureDetail

/-- The request shows what its latest artifact says now. -/
def Mirrors (r : Uuid) (db : Db Unit) : Prop :=
  ∃ row, db.request r = some row ∧ Shows (derivedState r db) row

/-! ## The latest artifact -/

theorem mem_artifactRows : (id, a) ∈ artifactRows r db ↔
    db.artifact id = some a ∧ a.dataSubjectRequestId = r := by
  rw [artifactRows, mem_sortedRows, beq_iff_eq]

theorem latestArtifact_concat (rows : List (Uuid × ExportArtifact)) (row : Uuid × ExportArtifact) :
    latestArtifact (rows ++ [row]) = match latestArtifact rows with
      | none => some row
      | some l => if l.2.queuedAt < row.2.queuedAt then some row else some l := by
  rw [latestArtifact, List.foldl_append]
  rfl

/-- The latest of some artifacts is one of them that was queued last, and there is one if there
    are artifacts. -/
theorem latestArtifact_spec (rows : List (Uuid × ExportArtifact)) :
    (∀ l, latestArtifact rows = some l →
      l ∈ rows ∧ ∀ row ∈ rows, row.2.queuedAt ≤ l.2.queuedAt) ∧
      (rows ≠ [] → (latestArtifact rows).isSome = true) := by
  induction rows using List.reverseRecOn with
  | nil => simp [latestArtifact]
  | append_singleton rows row ih =>
      rw [latestArtifact_concat]
      cases before : latestArtifact rows with
      | none =>
          have empty : rows = [] := by
            by_contra some
            simpa [before] using ih.2 some
          simp [empty]
      | some l =>
          obtain ⟨member, max⟩ := ih.1 l before
          dsimp only
          split
          · rename_i later
            refine ⟨fun l' is => ?_, fun _ => rfl⟩
            obtain rfl := Option.some.inj is
            refine ⟨by simp, fun other among => ?_⟩
            rcases List.mem_append.mp among with old | new
            · exact Int.le_of_lt (Int.lt_of_le_of_lt (max other old) later)
            · exact List.mem_singleton.mp new ▸ Int.le_refl _
          · rename_i earlier
            refine ⟨fun l' is => ?_, fun _ => rfl⟩
            obtain rfl := Option.some.inj is
            refine ⟨by simp [member], fun other among => ?_⟩
            rcases List.mem_append.mp among with old | new
            · exact max other old
            · exact List.mem_singleton.mp new ▸ Int.not_lt.mp earlier

theorem mem_of_latestOf {l : Uuid × ExportArtifact} (latest : latestOf r db = some l) :
    db.artifact l.1 = some l.2 ∧ l.2.dataSubjectRequestId = r :=
  mem_artifactRows.mp ((latestArtifact_spec _).1 l latest).1

theorem latestOf_isSome (seen : db.artifact id = some a) :
    ∃ l, latestOf a.dataSubjectRequestId db = some l := by
  refine Option.isSome_iff_exists.mp ((latestArtifact_spec _).2 fun none => ?_)
  have member : (id, a) ∈ artifactRows a.dataSubjectRequestId db := mem_artifactRows.mpr ⟨seen, rfl⟩
  simp [none] at member

/-! ## States -/

/-- A state that the services write: `execution_failure_*` are set for a failure only. -/
structure ExecutionState.Proper (state : ExecutionState) : Prop where
  written : state.status ≠ .notStarted ∧ state.status ≠ .partiallyFulfilled
  reason : state.status ≠ .failed → state.failureReasonCode = none ∧ state.failureDetail = none

theorem shows_withExecution {state : ExecutionState} (proper : state.Proper) (referenceNow : Time)
    (row : DataSubjectRequest) : Shows state (row.withExecution state referenceNow) := by
  obtain ⟨status, eventAt, code, detail⟩ := state
  obtain ⟨written, reason⟩ := proper
  cases status <;> first
    | exact absurd rfl written.1
    | exact absurd rfl written.2
    | exact ⟨rfl, rfl, rfl⟩
    | (obtain ⟨noCode, noDetail⟩ := reason nofun
       exact ⟨rfl, noCode.symm, noDetail.symm⟩)

theorem withExecution_requestType (state : ExecutionState) (referenceNow : Time)
    (row : DataSubjectRequest) :
    (row.withExecution state referenceNow).requestType = row.requestType := by
  unfold DataSubjectRequest.withExecution
  cases state.status <;> rfl

/-- What holds of every artifact that the services leave behind. -/
structure ArtifactOk (clock : Time) (a : ExportArtifact) : Prop where
  delivered : a.downloadedAt.isSome = true ∨ 0 < a.downloadCount →
    a.status = .ready ∨ a.status = .expired
  started : ∀ x ∈ a.startedAt, x ≤ clock
  completed : ∀ x ∈ a.completedAt, x ≤ clock
  live : a.status ≠ .cancelled

theorem executionState_proper (now : Time) (live : a.status ≠ .cancelled) :
    (executionState now a).Proper := by
  unfold executionState
  split
  · exact ⟨⟨nofun, nofun⟩, fun _ => ⟨rfl, rfl⟩⟩
  · split
    · split
      · exact ⟨⟨nofun, nofun⟩, fun _ => ⟨rfl, rfl⟩⟩
      · exact ⟨⟨nofun, nofun⟩, fun failed => absurd rfl failed⟩
    · split <;> exact ⟨⟨nofun, nofun⟩, fun _ => ⟨rfl, rfl⟩⟩
    · exact ⟨⟨nofun, nofun⟩, fun _ => ⟨rfl, rfl⟩⟩
    · exact ⟨⟨nofun, nofun⟩, fun failed => absurd rfl failed⟩
    · exact ⟨⟨nofun, nofun⟩, fun failed => absurd rfl failed⟩
    · rename_i cancelled
      exact absurd cancelled live

/-- Two states that a request cannot tell apart. -/
structure SameOutcome (s s' : ExecutionState) : Prop where
  status : s.status = s'.status
  reason : s.failureReasonCode = s'.failureReasonCode
  detail : s.failureDetail = s'.failureDetail

theorem SameOutcome.refl (s : ExecutionState) : SameOutcome s s := ⟨rfl, rfl, rfl⟩

theorem SameOutcome.shows {s s' : ExecutionState} {row : DataSubjectRequest} (h : SameOutcome s s')
    (shows : Shows s row) : Shows s' row :=
  ⟨shows.status.trans h.status, shows.reason.trans h.reason, shows.detail.trans h.detail⟩

/-- In processing with a lease that has ended: due for recovery, or about to be. -/
def ExportArtifact.lapsed (now : Time) (a : ExportArtifact) : Bool :=
  a.status == .processing && a.processingLeaseExpiresAt.any (· ≤ now)

theorem getD_le {now : Time} {event : Option Time} (h : ∀ x ∈ event, x ≤ now) :
    event.getD now ≤ now := by
  cases event with
  | none => exact Int.le_refl now
  | some x => exact h x rfl

/-- The state derived at the time of the event of a state is that state, if the lease of the
    artifact has not ended. -/
theorem executionState_steady {now : Time} (ok : ArtifactOk now a) (live : a.lapsed now = false) :
    SameOutcome (executionState ((executionState now a).eventAt.getD now) a)
      (executionState now a) := by
  by_cases delivered : a.downloadedAt.isSome = true ∨ 0 < a.downloadCount
  · simp only [executionState, delivered, if_true]
    exact ⟨rfl, rfl, rfl⟩
  cases status : a.status with
  | queued | expired | failed =>
      simp only [executionState, delivered, if_false, status]
      exact ⟨rfl, rfl, rfl⟩
  | cancelled => exact absurd status ok.live
  | ready =>
      by_cases valid : now < a.expiresAt
      · have before : a.completedAt.getD now < a.expiresAt :=
          Int.lt_of_le_of_lt (getD_le ok.completed) valid
        simp only [executionState, delivered, if_false, status, valid, if_true,
          ExecutionState.plain, Option.getD_some, before]
        exact ⟨rfl, rfl, rfl⟩
      · simp only [executionState, delivered, if_false, status, valid, ExecutionState.expired,
          Option.getD_some, Int.lt_irrefl]
        exact ⟨rfl, rfl, rfl⟩
  | processing =>
      cases lease : a.processingLeaseExpiresAt with
      | none =>
          simp only [executionState, delivered, if_false, status, lease, Option.any_none,
            Bool.false_eq_true]
          exact ⟨rfl, rfl, rfl⟩
      | some expiry =>
          have valid : now < expiry := by simpa [ExportArtifact.lapsed, status, lease] using live
          have before : a.startedAt.getD now < expiry :=
            Int.lt_of_le_of_lt (getD_le ok.started) valid
          simp only [executionState, delivered, if_false, status, lease, Option.any_some, valid,
            decide_true, if_true, ExecutionState.plain, Option.getD_some, before]
          exact ⟨rfl, rfl, rfl⟩

/-! ## Changes of artifacts -/

/-- What the services rely on between two operations. -/
structure Regular (db : Db Unit) : Prop where
  artifacts : ∀ id a, db.artifact id = some a → ArtifactOk db.clock a
  requests : ∀ id a, db.artifact id = some a →
    ∃ row, db.request a.dataSubjectRequestId = some row ∧ row.requestType = .export

/-- A statement that leaves one artifact in version `a` and nothing else changed. -/
structure ArtifactWritten (id : Uuid) (a : ExportArtifact) (db db' : Db Unit) : Prop where
  requests : db'.requests = db.requests
  clock : db'.clock = db.clock
  keys : db'.artifacts.keys = db.artifacts.keys
  same : db'.artifact id = some a
  others : ∀ k, k ≠ id → db'.artifact k = db.artifact k

theorem artifactWritten_put {row : ExportArtifact} (seen : db.artifact id = some row) :
    ArtifactWritten id a db { db with artifacts := db.artifacts.put () id (some a) } :=
  ⟨rfl, rfl, Table.keys_put seen, Table.view_put_same () id _ _,
    fun _ other => Table.view_put_other other⟩

theorem artifactWritten_refl (seen : db.artifact id = some a) : ArtifactWritten id a db db :=
  ⟨rfl, rfl, rfl, seen, fun _ _ => rfl⟩

theorem ArtifactWritten.regular {row : ExportArtifact} (h : ArtifactWritten id a db db')
    (regular : Regular db) (seen : db.artifact id = some row) (ok : ArtifactOk db.clock a)
    (request : a.dataSubjectRequestId = row.dataSubjectRequestId) : Regular db' := by
  have kept : ∀ k, db'.request k = db.request k := fun k => by rw [Db.request, h.requests]
  refine ⟨fun k b here => ?_, fun k b here => ?_⟩
  · rw [h.clock]
    by_cases same : k = id
    · subst same
      exact Option.some.inj (h.same.symm.trans here) ▸ ok
    · exact regular.artifacts k b ((h.others k same).symm.trans here)
  · simp only [kept]
    by_cases same : k = id
    · subst same
      cases Option.some.inj (h.same.symm.trans here)
      exact request ▸ regular.requests _ row seen
    · exact regular.requests k b ((h.others k same).symm.trans here)

/-- The artifacts of other requests are as before. -/
theorem ArtifactWritten.rows {row : ExportArtifact} (h : ArtifactWritten id a db db')
    (seen : db.artifact id = some row) (request : a.dataSubjectRequestId = row.dataSubjectRequestId)
    (other : r ≠ row.dataSubjectRequestId) : artifactRows r db' = artifactRows r db := by
  unfold artifactRows sortedRows
  rw [Table.select_congr h.keys]
  intro k
  by_cases same : k = id
  · subst same
    have mine : ∀ b : ExportArtifact, b.dataSubjectRequestId = row.dataSubjectRequestId →
        (some b).filter (fun b => b.dataSubjectRequestId == r) = none := by
      intro b is
      simp [is, Ne.symm other]
    rw [show db'.artifacts.view () k = some a from h.same, mine a request,
      show db.artifacts.view () k = some row from seen, mine row rfl]
  · rw [show db'.artifacts.view () k = db.artifacts.view () k from h.others k same]

theorem ArtifactWritten.mirrors {row : ExportArtifact} (h : ArtifactWritten id a db db')
    (seen : db.artifact id = some row) (request : a.dataSubjectRequestId = row.dataSubjectRequestId)
    (other : r ≠ row.dataSubjectRequestId) (mirrors : Mirrors r db) : Mirrors r db' := by
  obtain ⟨shown, here, shows⟩ := mirrors
  refine ⟨shown, by rw [Db.request, h.requests]; exact here, ?_⟩
  have same : derivedState r db' = derivedState r db := by
    rw [derivedState, latestOf, h.rows seen request other, h.clock]
    rfl
  exact same ▸ shows

/-- A lock leaves all rows as they are. -/
theorem ArtifactWritten.unchanged (h : ArtifactWritten id a db db') (seen : db.artifact id = some a)
    (k : Uuid) : db'.artifact k = db.artifact k := by
  by_cases same : k = id
  · subst same
    exact h.same.trans seen.symm
  · exact h.others k same

theorem updateArtifact_ok {change : ExportArtifact → Option ExportArtifact}
    {out : Option ExportArtifact} (h : updateArtifact () id change db = some (.ok out, db')) :
    out = none ∧ db' = db ∨ ∃ row next, db.artifact id = some row ∧ change row = some next ∧
      out = some next ∧ ArtifactWritten id next db db' := by
  obtain ⟨⟨r, T⟩, found, is⟩ := Option.map_eq_some_iff.mp h
  obtain ⟨answer, rfl⟩ := Prod.mk.inj is
  rcases Table.update_cases found with ⟨rfl, failed | ⟨none, -⟩⟩ | ⟨row, next, seen, moves, -, rfl, ok⟩
  · cases answer.symm.trans failed
  · cases answer.symm.trans none
    exact .inl ⟨rfl, rfl⟩
  · cases answer.symm.trans ok
    exact .inr ⟨row, next, seen, moves, rfl, artifactWritten_put seen⟩

theorem flushArtifact_written {writer : Writer} {loaded assigned : ExportArtifact} {u : Unit}
    (seen : db.artifact id = some loaded)
    (h : exec () (.flushArtifact writer id loaded assigned) db = some (.ok u, db')) :
    ArtifactWritten id assigned db db' := by
  simp only [exec] at h
  split at h
  · rename_i same
    cases h
    exact same ▸ artifactWritten_refl seen
  · obtain ⟨⟨r, after⟩, updated, is⟩ := Option.map_eq_some_iff.mp h
    obtain ⟨answer, rfl⟩ := Prod.mk.inj is
    cases r with
    | error e => cases answer
    | ok out =>
        rcases updateArtifact_ok updated with ⟨rfl, -⟩ | ⟨row, next, here, written, -, changed⟩
        · cases answer
        · cases here.symm.trans seen
          cases written
          simpa [ExportArtifact.flush] using changed

theorem lockArtifact_written {p : ExportArtifact → Bool} {out : Option ExportArtifact}
    (h : lockArtifact () id p db = some (.ok out, db')) (answer : out = some a) :
    db.artifact id = some a ∧ p a = true ∧ ArtifactWritten id a db db' := by
  subst answer
  rcases lockArtifact_cases h with ⟨-, none⟩ | ⟨row, seen, holds, -, is, rfl⟩
  · cases none
  · cases is
    exact ⟨seen, holds, artifactWritten_put seen⟩

/-- A client that runs alone finds no lock in its way. -/
theorem lockArtifactOrSkip_written {p : ExportArtifact → Bool} {out : Option ExportArtifact}
    (seen : db.artifact id = some a) (holds : p a = true)
    (h : lockArtifactOrSkip () id p db = some (.ok out, db')) :
    out = some a ∧ ArtifactWritten id a db db' := by
  have free : db.artifacts.free () id = true := by
    unfold Table.free Cell.free
    cases (db.artifacts.cell id).holder <;> simp
  have found : db.artifacts.lockRowOrSkip () id p =
      (some a, db.artifacts.put () id (some a)) := by
    simp only [Table.lockRowOrSkip, show db.artifacts.view () id = some a from seen,
      Option.filter_some, holds, if_true, free]
  simp only [lockArtifactOrSkip, found, Option.some.injEq, Prod.mk.injEq, Except.ok.injEq] at h
  obtain ⟨rfl, rfl⟩ := h
  exact ⟨rfl, artifactWritten_put seen⟩

/-! ## Writing the state of a request -/

/-- The request `r` now mirrors its artifacts; nothing but this request has changed. -/
structure Synced (r : Uuid) (db db' : Db Unit) : Prop where
  artifacts : db'.artifacts = db.artifacts
  clock : db'.clock = db.clock
  others : ∀ k, k ≠ r → db'.request k = db.request k
  type : ∃ row, db'.request r = some row ∧ row.requestType = .export
  mirrors : Mirrors r db'

theorem Synced.derived (h : Synced r db db') (k : Uuid) : derivedState k db' = derivedState k db := by
  simp only [derivedState, latestOf, artifactRows, h.artifacts, h.clock]

theorem Synced.mirrors_other {k : Uuid} (h : Synced r db db') (mirrors : Mirrors k db) :
    Mirrors k db' := by
  by_cases same : k = r
  · exact same ▸ h.mirrors
  · obtain ⟨row, here, shows⟩ := mirrors
    exact ⟨row, (h.others k same).trans here, (h.derived k).symm ▸ shows⟩

theorem Synced.regular (h : Synced r db db') (regular : Regular db) : Regular db' := by
  have artifact : ∀ k, db'.artifact k = db.artifact k := fun k => by rw [Db.artifact, h.artifacts]
  refine ⟨fun k b here => ?_, fun k b here => ?_⟩
  · exact h.clock.symm ▸ regular.artifacts k b ((artifact k).symm.trans here)
  · by_cases same : b.dataSubjectRequestId = r
    · exact same ▸ h.type
    · obtain ⟨row, there, type⟩ := regular.requests k b ((artifact k).symm.trans here)
      exact ⟨row, (h.others _ same).trans there, type⟩

theorem flushRequest_written {loaded assigned : DataSubjectRequest} {u : Unit}
    (seen : db.request id = some loaded)
    (h : exec () (.flushRequest id loaded assigned) db = some (.ok u, db')) :
    db'.artifacts = db.artifacts ∧ db'.clock = db.clock ∧ db'.request id = some assigned ∧
      ∀ k, k ≠ id → db'.request k = db.request k := by
  simp only [exec] at h
  split at h
  · rename_i same
    cases h
    exact ⟨rfl, rfl, same ▸ seen, fun _ _ => rfl⟩
  · obtain ⟨⟨r, after⟩, updated, is⟩ := Option.map_eq_some_iff.mp h
    obtain ⟨answer, rfl⟩ := Prod.mk.inj is
    obtain ⟨⟨out, T⟩, found, same⟩ := Option.map_eq_some_iff.mp updated
    obtain ⟨rfl, rfl⟩ := Prod.mk.inj same
    rcases Table.update_cases found with ⟨-, failed | ⟨none, -⟩⟩ | ⟨row, next, here, moves, -, rfl, -⟩
    · subst failed
      cases answer
    · subst none
      cases answer
    · cases here.symm.trans seen
      cases moves
      have written : loaded.flush assigned loaded = assigned := by simp [DataSubjectRequest.flush]
      exact ⟨rfl, rfl, (Table.view_put_same () id _ _).trans (congrArg some written),
        fun k other => Table.view_put_other other⟩

/-- Artifacts that the session has loaded are what it sees. -/
def Current (held : List (Uuid × ExportArtifact)) (db : Db Unit) : Prop :=
  ∀ row ∈ held, db.artifact row.1 = some row.2

theorem artifactsOfRequest_ensures {held : List (Uuid × ExportArtifact)} (current : Current held db) :
    (machine Unit).Ensures () (artifactsOfRequest r held)
      (fun rows db' => rows = artifactRows r db ∧ db' = db) db := by
  refine ensures_bind (ensures_stmt fun rows db' executed => ensures_pure ?_)
  cases executed
  refine ⟨(List.map_congr_left ?_).trans (List.map_id _), rfl⟩
  rintro ⟨k, b⟩ member
  cases found : held.lookup k with
  | none => rfl
  | some c =>
      have loaded : db.artifact k = some c := current _ (Table.lookup_mem found)
      cases loaded.symm.trans (mem_artifactRows.mp member).1
      rfl

/-- Writing `state` for artifact `id` of request `r`, with the events of derived states at
    `referenceNow`, is writing what the latest artifact says. -/
structure Settles (id r : Uuid) (state : ExecutionState) (referenceNow : Time) (db : Db Unit) :
    Prop where
  proper : state.Proper
  own : ∀ l, latestOf r db = some l → l.1 = id → SameOutcome state (executionState db.clock l.2)
  redirected : ∀ l, latestOf r db = some l → l.1 ≠ id →
    SameOutcome (executionState referenceNow l.2) (executionState db.clock l.2)

theorem redirectedState_ensures {state : ExecutionState} {referenceNow : Time}
    {held : List (Uuid × ExportArtifact)} (regular : Regular db) (seen : db.artifact id = some a)
    (settles : Settles id a.dataSubjectRequestId state referenceNow db) (current : Current held db) :
    (machine Unit).Ensures () (redirectedState id a state referenceNow held)
      (fun out db' => db' = db ∧ out.1.Proper ∧
        SameOutcome out.1 (derivedState a.dataSubjectRequestId db)) db := by
  obtain ⟨l, latest⟩ := latestOf_isSome seen
  have derived : derivedState a.dataSubjectRequestId db = executionState db.clock l.2 := by
    rw [derivedState, latest]
    rfl
  have live := (regular.artifacts l.1 l.2 (mem_of_latestOf latest).1).live
  refine (artifactsOfRequest_ensures current).bind ?_
  rintro rows db' ⟨rfl, rfl⟩
  rw [show latestArtifact (artifactRows a.dataSubjectRequestId db') = some l from latest]
  dsimp only
  split
  · rename_i mine
    exact ensures_pure ⟨rfl, settles.proper, derived ▸ settles.own l latest mine⟩
  · rename_i other
    refine (artifactsOfRequest_ensures current).bind ?_
    rintro again db'' ⟨rfl, rfl⟩
    refine ensures_pure ⟨rfl, ?_⟩
    rw [(mem_of_latestOf latest).2,
      show latestArtifact (artifactRows a.dataSubjectRequestId db'') = some l from latest]
    exact ⟨executionState_proper _ live, derived ▸ settles.redirected l latest other⟩

/-- A given state, at the current time, of the artifact as it is. -/
theorem settles_now {state : ExecutionState} (proper : state.Proper)
    (seen : db.artifact id = some a) (event : state.eventAt.getD db.clock = db.clock)
    (own : (∃ l, latestOf r db = some l ∧ l.1 = id) → SameOutcome state (executionState db.clock a)) :
    Settles id r state (state.eventAt.getD db.clock) db := by
  refine ⟨proper, fun l latest mine => ?_, fun _ _ _ => by rw [event]; exact .refl _⟩
  have here := (mem_of_latestOf latest).1
  rw [mine] at here
  cases here.symm.trans seen
  exact own ⟨l, latest, mine⟩

theorem syncExecutionState_ensures {state : ExecutionState} {request : Option DataSubjectRequest}
    {held : List (Uuid × ExportArtifact)} (regular : Regular db) (seen : db.artifact id = some a)
    (loaded : ∀ row, request = some row → db.request a.dataSubjectRequestId = some row)
    (settles : Settles id a.dataSubjectRequestId state (state.eventAt.getD db.clock) db)
    (current : Current held db) :
    (machine Unit).Ensures () (syncExecutionState id a state request held)
      (fun _ db' => Synced a.dataSubjectRequestId db db') db := by
  refine ensures_bind (ensures_stmt fun now db' executed => ?_)
  cases executed
  refine (redirectedState_ensures regular seen settles current).bind ?_
  rintro out db' ⟨rfl, proper, outcome⟩
  refine ensures_bind (ensures_stmt fun found db'' executed => ?_)
  cases executed
  obtain ⟨row, here, type⟩ := regular.requests id a seen
  rw [show db'.requests.view () a.dataSubjectRequestId = some row from here]
  have object : request.getD row = row := by
    cases request with
    | none => rfl
    | some o => exact Option.some.inj ((loaded o rfl).symm.trans here)
  dsimp only
  generalize request.getD row = loadedRow at object ⊢
  subst object
  rw [if_neg (by simp [type])]
  refine ensures_stmt fun u after executed => ?_
  obtain ⟨artifacts, clock, written, others⟩ := flushRequest_written here executed
  have shows := outcome.shows (shows_withExecution proper out.2 loadedRow)
  refine ⟨artifacts, clock, others, ⟨_, written, ?_⟩, ⟨_, written, ?_⟩⟩
  · exact (withExecution_requestType out.1 out.2 loadedRow).trans type
  · simpa [derivedState, latestOf, artifactRows, artifacts, clock] using shows

end SaasTemplate.Privacy
