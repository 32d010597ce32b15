import SaasTemplate.Privacy.ExecutionBatches

/-! # The execution status after each operation

What each operation on artifacts leaves behind when it runs alone. The state that it derives
for another artifact is the one of the time of an event, so the batches come with a condition
on leases that have ended.
-/

namespace SaasTemplate.Privacy

open SaasTemplate.Isolation SaasTemplate.Isolation.Machine

variable {start db db' : Db Unit} {id r : Uuid} {a : ExportArtifact} {settings : ExportSettings}

/-- What an operation leaves behind: each artifact it has changed is one whose request mirrors
    its artifacts. -/
structure Kept (start db : Db Unit) : Prop where
  regular : Regular db
  clock : db.clock = start.clock
  kept : ∀ id a, db.artifact id = some a →
    start.artifact id = some a ∨ Mirrors a.dataSubjectRequestId db

theorem Within.done (h : Within start (fun _ => False) db) : Kept start db :=
  ⟨h.regular, h.placed.clock, fun id a seen =>
    (h.kept id a seen).imp_right fun other => other.resolve_left not_false⟩

theorem Kept.refl (regular : Regular db) : Kept db db := (within_start regular).done

/-! ## One artifact -/

/-- Write one artifact and then the state of its request. -/
theorem written_synced {row : ExportArtifact} {middle : Db Unit} (regular : Regular db)
    (seen : db.artifact id = some row) (written : ArtifactWritten id a db middle)
    (ok : ArtifactOk db.clock a) (place : a.place = row.place)
    (synced : Synced a.dataSubjectRequestId middle db') : Kept db db' := by
  have within : Within db (fun r => r = a.dataSubjectRequestId) db := within_start regular
  exact ((within.written written seen ok place rfl).synced synced |>.mono
    fun _ waits => waits.2 waits.1).done

theorem current_nil : Current [] db := fun _ member => absurd member List.not_mem_nil

theorem plain_proper {status : ExecutionStatus} {event : Option Time}
    (written : status ≠ .notStarted ∧ status ≠ .partiallyFulfilled) :
    (ExecutionState.plain status event).Proper :=
  ⟨written, fun _ => ⟨rfl, rfl⟩⟩

theorem getRequest_ensures :
    (machine Unit).Ensures () (getRequest r) (fun row db' => db.request r = some row ∧ db' = db) db := by
  refine ensures_bind (ensures_stmt fun found db' executed => ?_)
  cases executed
  exact ensures_orRaise fun row is => ⟨is, rfl⟩

theorem ensureExportsEnabled_ensures :
    (machine Unit).Ensures () (ensureExportsEnabled settings) (fun _ db' => db' = db) db :=
  ensures_raiseIf fun _ => rfl

theorem queuedArtifact_ok (settings : ExportSettings) (requestId requestedBy : Uuid)
    (request : DataSubjectRequest) (queuedAt createdAt clock : Time) :
    ArtifactOk clock (queuedArtifact settings requestId requestedBy request queuedAt createdAt) where
  delivered downloaded := by simp [queuedArtifact] at downloaded
  started := by simp [queuedArtifact]
  completed := by simp [queuedArtifact]
  live := nofun

/-- A new artifact of an export request. -/
theorem insertArtifact_ok {u : Unit}
    (h : exec () (.insertArtifact id a) db = some (.ok u, db')) :
    db'.requests = db.requests ∧ db'.clock = db.clock ∧ db'.artifact id = some a ∧
      ∀ k, k ≠ id → db'.artifact k = db.artifact k := by
  simp only [exec] at h
  split at h
  · obtain ⟨⟨out, T⟩, inserted, is⟩ := Option.map_eq_some_iff.mp h
    obtain ⟨answer, rfl⟩ := Prod.mk.inj is
    rcases Table.insert_cases inserted with ⟨-, failed⟩ | ⟨-, -, rfl, -⟩
    · cases answer.symm.trans failed
    · exact ⟨rfl, rfl, Table.view_put_same () id _ _, fun _ other => Table.view_put_other other⟩
  · cases h

theorem requestExportArtifact_ensures {newId requestId requestedBy : Uuid} (regular : Regular db) :
    (machine Unit).Ensures () (requestExportArtifact settings newId requestId requestedBy)
      (fun _ db' => Kept db db') db := by
  refine ensureExportsEnabled_ensures.bind ?_
  rintro - db rfl
  refine getRequest_ensures.bind ?_
  rintro request db ⟨there, rfl⟩
  refine ensures_bind (ensures_raiseIf fun exportable => ?_)
  refine ensures_bind (ensures_stmt fun queuedAt db executed => ?_)
  cases executed
  refine ensures_bind (ensures_stmt fun createdAt db executed => ?_)
  cases executed
  refine ensures_bind (ensures_stmt fun u middle executed => ?_)
  obtain ⟨requests, clock, seen, others⟩ := insertArtifact_ok executed
  have type : request.requestType = .export := by
    simp only [isExportable, Bool.and_eq_false_iff, not_or, Bool.not_eq_false, beq_iff_eq]
      at exportable
    exact exportable.1.1
  have here : middle.request requestId = some request := by
    rw [Db.request, requests]
    exact there
  have inserted : Regular middle := by
    refine ⟨fun k b found => ?_, fun k b found => ?_⟩ <;> by_cases same : k = newId
    · cases Option.some.inj (seen.symm.trans (same ▸ found))
      exact queuedArtifact_ok ..
    · exact clock ▸ regular.artifacts k b ((others k same).symm.trans found)
    · cases Option.some.inj (seen.symm.trans (same ▸ found))
      exact ⟨request, here, type⟩
    · rw [Db.request, requests]
      exact regular.requests k b ((others k same).symm.trans found)
  have settles : Settles newId requestId (.plain .queued (some db.clock))
      ((ExecutionState.plain .queued (some db.clock)).eventAt.getD middle.clock) middle :=
    settles_now (plain_proper ⟨(by simp), (by simp)⟩) seen clock.symm fun _ => ⟨rfl, rfl, rfl⟩
  refine (syncExecutionState_ensures inserted seen (fun row is => ?_) settles
    current_nil).bind fun _ after synced => ensures_stmt fun _ last executed => ?_
  · cases is
    exact here
  · cases executed
    refine ⟨synced.regular inserted, synced.clock.trans clock, fun k b found => ?_⟩
    rw [Db.artifact, synced.artifacts] at found
    by_cases same : k = newId
    · cases Option.some.inj (seen.symm.trans (same ▸ found))
      exact .inr synced.mirrors
    · exact .inl ((others k same).symm.trans found)

theorem saveArtifact_ensures {writer : Writer} {loaded assigned : ExportArtifact}
    (seen : db.artifact id = some loaded) :
    (machine Unit).Ensures () (saveArtifact writer id loaded assigned)
      (fun out db' => out = assigned ∧ ArtifactWritten id assigned db db') db := by
  refine ensures_bind (ensures_stmt fun u middle executed => ?_)
  have written := flushArtifact_written seen executed
  refine ensures_bind (ensures_stmt fun out after executed => ensures_pure ?_)
  cases executed
  exact ⟨by rw [show middle.artifacts.view () id = some assigned from written.same]; rfl, written⟩

theorem ArtifactWritten.trans {row : ExportArtifact} {middle : Db Unit}
    (h : ArtifactWritten id row db middle) (h' : ArtifactWritten id a middle db') :
    ArtifactWritten id a db db' :=
  ⟨h'.requests.trans h.requests, h'.clock.trans h.clock, h'.keys.trans h.keys, h'.same,
    fun k other => (h'.others k other).trans (h.others k other)⟩

/-- The end of an operation on one artifact: its request is written with a given state. -/
theorem syncNow_ensures {row : ExportArtifact} {middle : Db Unit} {state : ExecutionState}
    (regular : Regular db) (seen : db.artifact id = some row)
    (written : ArtifactWritten id a db middle) (ok : ArtifactOk db.clock a)
    (place : a.place = row.place) (proper : state.Proper) (event : state.eventAt = some db.clock)
    (own : (∃ l, latestOf a.dataSubjectRequestId db = some l ∧ l.1 = id) →
      SameOutcome state (executionState db.clock a)) :
    (machine Unit).Ensures () (do
      syncExecutionState id a state none []
      sql .recordAuditEvent) (fun _ db' => Kept db db') middle := by
  have request : a.dataSubjectRequestId = row.dataSubjectRequestId := congrArg (·.1) place
  have now : state.eventAt.getD middle.clock = middle.clock := by
    rw [event, written.clock]
    rfl
  have settles : Settles id a.dataSubjectRequestId state (state.eventAt.getD middle.clock) middle := by
    refine settles_now proper written.same now fun ⟨l, latest, mine⟩ => ?_
    obtain ⟨b, before⟩ := (written.placed seen place).latestOf latest
    exact written.clock ▸ own ⟨_, before, mine⟩
  refine (syncExecutionState_ensures (written.regular regular seen ok request) written.same
    (fun _ is => by cases is) settles current_nil).bind fun _ after synced =>
      ensures_stmt fun _ last executed => ?_
  cases executed
  exact written_synced regular seen written ok place synced

/-- An artifact in processing has not been delivered. -/
theorem ArtifactOk.undelivered {clock : Time} (ok : ArtifactOk clock a) (ready : a.status ≠ .ready)
    (expired : a.status ≠ .expired) : ¬(a.downloadedAt.isSome = true ∨ 0 < a.downloadCount) :=
  fun delivered => (ok.delivered delivered).elim ready expired

theorem processing_of_token {token : String} (h : a.isProcessingWith token = true) :
    a.status = .processing := by
  simp only [ExportArtifact.isProcessingWith, Bool.and_eq_true, beq_iff_eq] at h
  exact h.1

/-- The latest artifact of its request, when it becomes ready, has not passed its expiry. -/
def ReadyInTime (id : Uuid) (db : Db Unit) : Prop :=
  ∀ a, db.artifact id = some a →
    (latestOf a.dataSubjectRequestId db).map (·.1) = some id → db.clock < a.expiresAt

theorem markGeneratedExportArtifactReady_ensures {prepared : PreparedExportArchive} {token : String}
    (regular : Regular db) (inTime : ReadyInTime prepared.artifactId db) :
    (machine Unit).Ensures () (markGeneratedExportArtifactReady prepared token)
      (fun _ db' => Kept db db') db := by
  refine ensures_bind (ensures_stmt fun found locked executed => ?_)
  refine ensures_bind (ensures_orRaise fun row answer => ?_)
  obtain ⟨seen, holds, lock⟩ := lockArtifact_written executed answer
  have ok := regular.artifacts _ row seen
  have processing := processing_of_token holds
  have undelivered := ok.undelivered (by simp [processing]) (by simp [processing])
  refine ensures_bind (ensures_raiseIf fun matching => ?_)
  refine ensures_bind (ensures_stmt fun now db'' executed => ?_)
  cases executed
  refine (saveArtifact_ensures lock.same).bind ?_
  rintro - middle ⟨rfl, saved⟩
  refine syncNow_ensures regular seen (lock.trans saved) ?_ rfl (plain_proper ⟨nofun, nofun⟩)
    (congrArg some lock.clock) ?_
  · exact ⟨fun _ => .inl rfl, ok.started, fun x is => by
      cases is
      exact Int.le_of_eq lock.clock, nofun⟩
  · rintro ⟨l, latest, mine⟩
    have valid : db.clock < row.expiresAt := inTime row seen (by
      rw [show latestOf row.dataSubjectRequestId db = some l from latest]
      exact congrArg some mine)
    simp only [executionState, ExportArtifact.markedReady, ExportArtifact.withMetadata, undelivered,
      if_false, valid, if_true]
    exact ⟨rfl, rfl, rfl⟩

theorem markExportArtifactFailed_ensures {token text : String} (regular : Regular db) :
    (machine Unit).Ensures () (markExportArtifactFailed id token text)
      (fun _ db' => Kept db db') db := by
  refine ensures_bind (ensures_stmt fun found locked executed => ?_)
  cases found with
  | none =>
      rcases lockArtifact_cases executed with ⟨rfl, -⟩ | ⟨row, -, -, -, is, -⟩
      · exact ensures_pure (.refl regular)
      · cases is
  | some row =>
      obtain ⟨seen, holds, lock⟩ := lockArtifact_written executed rfl
      have ok := regular.artifacts _ row seen
      have processing := processing_of_token holds
      have undelivered := ok.undelivered (by simp [processing]) (by simp [processing])
      refine ensures_bind (ensures_stmt fun now db'' executed => ?_)
      cases executed
      refine (saveArtifact_ensures lock.same).bind ?_
      rintro - middle ⟨rfl, saved⟩
      refine syncNow_ensures regular seen (lock.trans saved) ?_ rfl
        ⟨⟨nofun, nofun⟩, fun other => absurd rfl other⟩ (congrArg some lock.clock) fun _ => ?_
      · exact ⟨fun delivered => absurd delivered undelivered, ok.started, ok.completed, nofun⟩
      · simp only [executionState, ExportArtifact.markedFailed, undelivered, if_false]
        exact ⟨rfl, rfl, rfl⟩

/-- A delivery that is confirmed for the first time. -/
theorem confirmDelivery_written {deliveredAt : Time} {newly : Bool}
    (h : exec () (.confirmDelivery id deliveredAt) db = some (.ok newly, db')) :
    newly = false ∧ db' = db ∨ newly = true ∧ ∃ row, db.artifact id = some row ∧
      row.status = .ready ∧ ArtifactWritten id
        { row with downloadCount := 1, downloadedAt := some deliveredAt } db db' := by
  obtain ⟨⟨out, after⟩, changed, is⟩ := Option.map_eq_some_iff.mp h
  obtain ⟨answer, rfl⟩ := Prod.mk.inj is
  cases out with
  | error e => cases answer
  | ok out =>
      cases answer
      rcases updateArtifact_ok changed with ⟨rfl, rfl⟩ | ⟨row, next, seen, moves, rfl, written⟩
      · exact .inl ⟨rfl, rfl⟩
      · obtain ⟨holds, rfl⟩ := updateIf_eq moves
        simp only [Bool.and_eq_true, beq_iff_eq] at holds
        exact .inr ⟨rfl, row, seen, holds.1.1.1.2, written⟩

theorem confirmExportDelivery_ensures (regular : Regular db) :
    (machine Unit).Ensures () (confirmExportDelivery settings id) (fun _ db' => Kept db db') db := by
  refine ensures_bind (ensures_stmt fun found db' executed => ?_)
  cases executed
  refine ensures_bind (ensures_orRaise fun artifact _ => ?_)
  refine ensureExportsEnabled_ensures.bind ?_
  rintro - db rfl
  refine ensures_bind (ensures_stmt fun now db' executed => ?_)
  cases executed
  refine ensures_bind (ensures_raiseIf fun _ => ?_)
  refine ensures_bind (ensures_bind (ensures_stmt fun request db' executed => ?_))
  cases executed
  refine ensures_raiseIf fun _ => ?_
  refine ensures_bind (ensures_raiseIf fun _ => ?_)
  refine ensures_bind (ensures_raiseIf fun _ => ?_)
  refine ensures_bind (ensures_stmt fun newly middle confirmed => ?_)
  refine ensures_bind (ensures_stmt fun refreshed db' executed => ?_)
  cases executed
  rcases confirmDelivery_written confirmed with ⟨rfl, rfl⟩ | ⟨rfl, row, seen, ready, written⟩
  · exact ensures_raiseIf fun _ => .refl regular
  · have ok := regular.artifacts _ row seen
    rw [show middle.artifacts.view () id = _ from written.same]
    refine syncNow_ensures regular seen written ⟨fun _ => .inl ready, ok.started, ok.completed,
      ok.live⟩ rfl (plain_proper ⟨nofun, nofun⟩) rfl fun _ => ?_
    simp [executionState, SameOutcome.refl]

/-! ## Batches -/

def staleBatch (limit : Nat) (db : Db Unit) : List (Uuid × ExportArtifact) :=
  batchOf limit (·.isStale db.clock) (fun a b => a.processingLeaseExpiresAt.all fun x =>
    b.processingLeaseExpiresAt.all (x ≤ ·)) db

def expiredBatch (limit : Nat) (db : Db Unit) : List (Uuid × ExportArtifact) :=
  batchOf limit (·.isExpiredReady db.clock) (fun a b => a.expiresAt ≤ b.expiresAt) db

/-- No request of the batch has, as its latest artifact, one that is not in the batch and whose
    lease has ended. -/
def Undisturbed (batch : List (Uuid × ExportArtifact)) (db : Db Unit) : Prop :=
  ∀ row ∈ batch, ∀ l, latestOf row.2.dataSubjectRequestId db = some l →
    l.2.lapsed db.clock = true → l ∈ batch

theorem latestOf_congr (same : db'.artifacts = db.artifacts) : latestOf r db' = latestOf r db := by
  rw [latestOf, artifactRows, same]
  rfl

theorem syncDerivedState_ensures {row : Uuid × ExportArtifact} {held : List (Uuid × ExportArtifact)}
    (regular : Regular db) (seen : db.artifact row.1 = some row.2) (current : Current held db)
    (live : ∀ l, latestOf row.2.dataSubjectRequestId db = some l → l.2.lapsed db.clock = false) :
    (machine Unit).Ensures () (syncDerivedState db.clock row held)
      (fun _ db' => Synced row.2.dataSubjectRequestId db db') db := by
  obtain ⟨l, latest⟩ := latestOf_isSome seen
  have ok := regular.artifacts l.1 l.2 (mem_of_latestOf latest).1
  refine ensures_bind ((artifactsOfRequest_ensures current).bind ?_)
  rintro rows db ⟨rfl, rfl⟩
  refine ensures_pure ?_
  rw [show latestArtifact (artifactRows row.2.dataSubjectRequestId db) = some l from latest]
  refine syncExecutionState_ensures regular seen (fun _ is => by cases is) ?_ current
  refine ⟨executionState_proper _ ok.live, fun l' is _ => ?_, fun l' is _ => ?_⟩
  · cases latest.symm.trans is
    exact .refl _
  · cases latest.symm.trans is
    exact executionState_steady ok (live l latest)

theorem stale_processing {now : Time} (h : a.isStale now = true) : a.status = .processing := by
  simp only [ExportArtifact.isStale, Bool.and_eq_true, beq_iff_eq] at h
  exact h.1

theorem recoverStaleProcessing_ensures {limit : Nat} (regular : Regular start) :
    (machine Unit).Ensures () (recoverStaleProcessing start.clock limit)
      (fun rows db' => rows = (staleBatch limit start).map (fun row => (row.1, row.2.recovered)) ∧
        Within start (fun r => ∃ row ∈ rows, row.2.dataSubjectRequestId = r) db' ∧
        (∀ row ∈ rows, db'.artifact row.1 = some row.2) ∧
        ∀ k, k ∉ rows.map (·.1) → db'.artifact k = start.artifact k) start := by
  refine ensures_bind (ensures_stmt fun ids db' executed => ?_)
  cases executed
  have started : Within start (fun _ => False) start := within_start regular
  refine (lockUpTo_ensures (fun id a db seen holds => ensures_stmt fun out db' locked =>
    lockArtifactOrSkip_written seen holds locked) started).bind ?_
  rintro stale locked ⟨batch, within, same⟩
  have loaded : ∀ row ∈ stale, start.artifact row.1 = some row.2 ∧ row.2.isStale start.clock = true :=
    batch ▸ fun row member => mem_batchOf member
  refine (flushEach_ensures (P := fun r => ∃ row ∈ stale, row.2.dataSubjectRequestId = r)
    (within.mono nofun) (fun row member => (same _).trans (loaded row member).1) (batch ▸ batchOf_nodup)
    fun row member => ?_).bind ?_
  · have ok := regular.artifacts _ _ (loaded row member).1
    have processing := stale_processing (loaded row member).2
    have undelivered := ok.undelivered (by simp [processing]) (by simp [processing])
    exact ⟨⟨fun delivered => absurd delivered undelivered, nofun, ok.completed, nofun⟩, rfl, row,
      member, rfl⟩
  · rintro - after ⟨within, done, others⟩
    refine ensures_pure ⟨by rw [batch]; rfl, within.mono ?_,
      fun row member => ?_, fun k absent => ?_⟩
    · rintro r ⟨row, member, rfl⟩
      exact ⟨_, List.mem_map_of_mem member, rfl⟩
    · obtain ⟨old, among, rfl⟩ := List.mem_map.mp member
      exact done old among
    · rw [List.map_map] at absent
      exact (others k absent).trans (same k)

theorem recoverStaleProcessingArtifacts_ensures {limit : Nat} (regular : Regular start)
    (undisturbed : Undisturbed (staleBatch limit start) start) :
    (machine Unit).Ensures () (recoverStaleProcessingArtifacts limit)
      (fun _ db' => Within start (fun _ => False) db') start := by
  refine ensures_bind (ensures_stmt fun now db' executed => ?_)
  cases executed
  refine (recoverStaleProcessing_ensures regular).bind ?_
  rintro rows db ⟨is, within, done, others⟩
  refine syncEach_ensures (fun row member middle regular same clock => ?_) within
  have seen : middle.artifact row.1 = some row.2 := by
    rw [Db.artifact, same]
    exact done row member
  rw [show start.clock = middle.clock from (clock.trans within.placed.clock).symm]
  refine syncDerivedState_ensures regular seen current_nil fun l latest => ?_
  rw [latestOf_congr same] at latest
  have here := (mem_of_latestOf latest).1
  obtain ⟨b, before⟩ := within.placed.latestOf latest
  by_cases worked : l.1 ∈ rows.map (·.1)
  · obtain ⟨other, among, key⟩ := List.mem_map.mp worked
    have last : l.2 = other.2 :=
      Option.some.inj (here.symm.trans (key ▸ done other among))
    rw [is] at among
    obtain ⟨stale, -, rfl⟩ := List.mem_map.mp among
    rw [last]
    rfl
  · have old := (others l.1 worked).symm.trans here
    obtain rfl : l.2 = b := Option.some.inj (old.symm.trans (mem_of_latestOf before).1)
    rw [is] at member
    obtain ⟨stale, among, rfl⟩ := List.mem_map.mp member
    by_contra lapsed
    rw [Bool.not_eq_false, clock, within.placed.clock] at lapsed
    refine worked (is ▸ ?_)
    rw [List.map_map]
    exact List.mem_map_of_mem (undisturbed stale among l before lapsed)

/-! ## Claims -/

theorem claimQueuedBatch_ensures {limit : Nat} {token : Uuid → String}
    (within : Within start (fun _ => False) db) :
    (machine Unit).Ensures () (claimQueuedBatch limit token)
      (fun rows db' => Within start (fun r => ∃ row ∈ rows, row.2.dataSubjectRequestId = r) db' ∧
        (∀ row ∈ rows, db'.artifact row.1 = some row.2 ∧ row.2.startedAt = some db.clock ∧
          executionState db.clock row.2 = .plain .processing (some db.clock))) db := by
  refine ensures_bind (ensures_stmt fun ids db' executed => ?_)
  cases executed
  refine (lockUpTo_ensures (fun id a db seen holds => ensures_stmt fun out db' locked =>
    lockArtifactOrSkip_written seen holds locked) within).bind ?_
  rintro rows locked ⟨batch, within', same⟩
  have clock : locked.clock = db.clock := within'.placed.clock.trans within.placed.clock.symm
  have loaded : ∀ row ∈ rows, db.artifact row.1 = some row.2 ∧ (row.2.status == .queued) = true :=
    batch ▸ fun row member => mem_batchOf member
  have undelivered : ∀ row ∈ rows,
      ¬(row.2.downloadedAt.isSome = true ∨ 0 < row.2.downloadCount) := by
    intro row member
    have queued := beq_iff_eq.mp (loaded row member).2
    exact (within.regular.artifacts _ _ (loaded row member).1).undelivered (by simp [queued])
      (by simp [queued])
  refine ensures_bind (ensures_stmt fun now db' executed => ?_)
  cases executed
  refine (flushEach_ensures (P := fun r => ∃ row ∈ rows, row.2.dataSubjectRequestId = r)
    (within'.mono nofun) (fun row member => (same _).trans (loaded row member).1)
    (batch ▸ batchOf_nodup) fun row member => ?_).bind ?_
  · have ok := within.regular.artifacts _ _ (loaded row member).1
    refine ⟨⟨fun delivered => absurd delivered (undelivered row member), fun x is => ?_, ?_, nofun⟩,
      rfl, row, member, rfl⟩
    · cases is
      exact Int.le_of_eq within'.placed.clock
    · exact within.placed.clock ▸ ok.completed
  · rintro - after ⟨within, done, -⟩
    refine ensures_pure ⟨within.mono ?_, fun row member => ?_⟩
    · rintro r ⟨row, member, rfl⟩
      exact ⟨_, List.mem_map_of_mem member, rfl⟩
    · obtain ⟨old, among, rfl⟩ := List.mem_map.mp member
      refine ⟨done old among, congrArg some clock, ?_⟩
      have lease : db.clock < db.clock + processingLease :=
        Int.lt_add_of_pos_right db.clock (by decide)
      simp [executionState, ExportArtifact.claimed, undelivered old among, lease, clock]

theorem claimQueuedArtifactLeases_ensures {limit : Nat} {token : Uuid → String}
    (regular : Regular start)
    (undisturbed : settings.enabled = true → Undisturbed (staleBatch limit start) start) :
    (machine Unit).Ensures () (claimQueuedArtifactLeases settings limit token)
      (fun _ db' => Within start (fun _ => False) db') start := by
  unfold claimQueuedArtifactLeases
  split
  · exact ensures_pure (within_start regular)
  · rename_i enabled
    refine (recoverStaleProcessingArtifacts_ensures regular
      (undisturbed (Bool.not_eq_false _ ▸ enabled))).bind ?_
    rintro - db within
    refine (claimQueuedBatch_ensures within).bind ?_
    rintro rows claimed ⟨within', done⟩
    have now : claimed.clock = db.clock := within'.placed.clock.trans within.placed.clock.symm
    refine syncEach_ensures (fun row member middle regular same clock => ?_) within'
    obtain ⟨here, started, state⟩ := done row member
    have seen : middle.artifact row.1 = some row.2 := by
      rw [Db.artifact, same]
      exact here
    have current : middle.clock = db.clock := clock.trans now
    refine syncExecutionState_ensures regular seen (fun _ is => by cases is) ?_ current_nil
    refine settles_now (plain_proper ⟨(by simp), (by simp)⟩) seen ?_ fun _ => ?_
    · rw [started, current]
      rfl
    · rw [current, state, started]
      exact .refl _

/-! ## Expiry -/

/-- No request of these rows has an artifact whose lease has ended as its latest one. -/
def Live (rows : List (Uuid × ExportArtifact)) (db : Db Unit) : Prop :=
  ∀ row ∈ rows, ∀ l, latestOf row.2.dataSubjectRequestId db = some l →
    l.2.lapsed db.clock = false

theorem ready_of_expired {now : Time} (h : a.isExpiredReady now = true) : a.status = .ready := by
  simp only [ExportArtifact.isExpiredReady, Bool.and_eq_true, beq_iff_eq] at h
  exact h.1

/-- Writing an artifact that is not in processing disturbs nothing. -/
theorem Live.written {row : ExportArtifact} {rows : List (Uuid × ExportArtifact)}
    (h : Live rows db) (written : ArtifactWritten id a db db') (seen : db.artifact id = some row)
    (place : a.place = row.place) (settled : a.lapsed db.clock = false) : Live rows db' := by
  intro other member l latest
  obtain ⟨b, before⟩ := (written.placed seen place).latestOf latest
  have here := (mem_of_latestOf latest).1
  rw [written.clock]
  by_cases same : l.1 = id
  · rw [same] at here
    exact Option.some.inj (written.same.symm.trans here) ▸ settled
  · have old := (written.others l.1 same).symm.trans here
    exact Option.some.inj ((mem_of_latestOf before).1.symm.trans old) ▸ h other member _ before

theorem expireEach_ensures {rows : List (Uuid × ExportArtifact)}
    (within : Within start (fun _ => False) db)
    (loaded : ∀ row ∈ rows, db.artifact row.1 = some row.2 ∧ row.2.isExpiredReady db.clock = true)
    (nodup : (rows.map (·.1)).Nodup) (live : Live rows db) :
    (machine Unit).Ensures () (expireEach db.clock rows)
      (fun _ db' => Within start (fun _ => False) db') db := by
  induction rows generalizing db with
  | nil => exact ensures_pure within
  | cons row rest ih =>
      obtain ⟨seen, expired⟩ := loaded row (by simp)
      have ready := ready_of_expired expired
      have ok := within.regular.artifacts _ _ seen
      rw [List.map_cons, List.nodup_cons] at nodup
      refine (saveArtifact_ensures seen).bind ?_
      rintro - middle ⟨rfl, written⟩
      have expiredOk : ArtifactOk db.clock row.2.markedExpired :=
        ⟨fun _ => .inr rfl, ok.started, ok.completed, nofun⟩
      have halfway : Within start (fun r => r = row.2.dataSubjectRequestId) middle :=
        (within.mono nofun).written written seen expiredOk rfl rfl
      have liveHere : Live (row :: rest) middle := live.written written seen rfl rfl
      have later : ∀ other ∈ rest, middle.artifact other.1 = some other.2 := fun other member => by
        have apart : other.1 ≠ row.1 := fun same => nodup.1 (same ▸ List.mem_map_of_mem member)
        exact (written.others _ apart).trans (loaded other (by simp [member])).1
      have round : (machine Unit).Ensures ()
          (syncDerivedState middle.clock (row.1, row.2.markedExpired) rest)
          (fun _ db' => Synced row.2.dataSubjectRequestId middle db') middle :=
        syncDerivedState_ensures halfway.regular written.same later (liveHere row (by simp))
      rw [show db.clock = middle.clock from written.clock.symm]
      refine round.bind fun _ after synced => ?_
      refine ensures_bind (ensures_stmt fun _ last executed => ?_)
      cases executed
      rw [show middle.clock = after.clock from synced.clock.symm]
      refine ih ((halfway.synced synced).mono fun r waits => waits.2 waits.1) (fun other member => ?_)
        nodup.2 fun other member l latest => ?_
      · refine ⟨?_, ?_⟩
        · rw [Db.artifact, synced.artifacts]
          exact later other member
        · rw [synced.clock, written.clock]
          exact (loaded other (by simp [member])).2
      · rw [latestOf_congr synced.artifacts] at latest
        exact synced.clock ▸ liveHere other (by simp [member]) l latest

theorem expireReadyArtifacts_ensures {limit : Nat} (regular : Regular db)
    (undisturbed : Undisturbed (expiredBatch limit db) db) :
    (machine Unit).Ensures () (expireReadyArtifacts db.clock limit)
      (fun _ db' => Within db (fun _ => False) db') db := by
  refine ensures_bind (ensures_stmt fun rows db' executed => ?_)
  cases executed
  refine expireEach_ensures (within_start regular) (fun row member => mem_batchOf member)
    batchOf_nodup fun row member l latest => ?_
  by_contra lapsed
  rw [Bool.not_eq_false] at lapsed
  have ready := ready_of_expired (mem_batchOf (undisturbed row member l latest lapsed)).2
  simp [ExportArtifact.lapsed, ready] at lapsed

end SaasTemplate.Privacy
