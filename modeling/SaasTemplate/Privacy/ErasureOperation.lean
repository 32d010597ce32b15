import SaasTemplate.Privacy.RequestOperations

/-! # The erasure keeps the contract

The transaction that executes an erasure holds the request throughout. Until the savepoint
it holds nothing else, so going back leaves it with the request as it was; and after the
providers it ends with the request fulfilled, or it does not end well.
-/

set_option linter.unusedSectionVars false

namespace SaasTemplate.Privacy

open SaasTemplate.Isolation SaasTemplate.Isolation.Prog

open SaasTemplate.Outbox (written written_same written_of_ne written_self)

variable {τ : Type} [DecidableEq τ] {t : τ} {s : Statement} {db db' : Db τ} {C : Concerns τ}
  {id : Uuid}

/-- `t` holds no row but the request, whose status it has not changed. -/
structure Alone (t : τ) (id : Uuid) (db : Db τ) : Prop where
  requests : Table.HoldsOnly t id db.requests
  artifacts : Table.HoldsNone t db.artifacts
  erased : Table.HoldsNone t db.erased
  clean : Clean t db

/-- `t` holds the request in version `r`, and has changed neither its type nor its status. -/
structure Locked (t : τ) (id : Uuid) (r : DataSubjectRequest) (db : Db τ) : Prop where
  held : db.requests.holder id = some t
  here : db.requests.pending id = some r
  before : ∃ before, db.requests.committed id = some before ∧
    r.requestType = before.requestType ∧ before.status = r.status
  entitled : r.IsEntitled

/-- `t` holds the approved erasure, not executed yet. -/
structure Working (t : τ) (id : Uuid) (db : Db τ) : Prop where
  held : db.requests.holder id = some t
  running : ∃ r before, db.requests.pending id = some r ∧ db.requests.committed id = some before ∧
    r.requestType = .erase ∧ SavedOk r before

theorem alone_stable : (privacyContract C).Stable t (Alone t id) := fun db db' held moved holds =>
  ⟨moved.stays.requests.keeps.holdsOnly held.requests,
    moved.stays.artifacts.keeps.holdsNone held.artifacts,
    moved.stays.erased.keeps.holdsNone held.erased,
    Mild.clean.stable db db' held.clean moved holds⟩

theorem locked_stable {r : DataSubjectRequest} :
    (privacyContract C).Stable t (Locked t id r) := by
  intro db db' held moved _
  have same := moved.stays.requests.keeps.cell held.held
  refine ⟨?_, ?_, ?_, held.entitled⟩
  · rw [Table.holder_of_cell same]
    exact held.held
  · rw [Table.pending_of_cell same]
    exact held.here
  · rw [Table.committed_of_cell same]
    exact held.before

theorem working_stable : (privacyContract C).Stable t (Working t id) := by
  intro db db' held moved _
  have same := moved.stays.requests.keeps.cell held.held
  refine ⟨?_, ?_⟩
  · rw [Table.holder_of_cell same]
    exact held.held
  · rw [Table.pending_of_cell same, Table.committed_of_cell same]
    exact held.running

theorem Alone.idle (h : Alone t id db) : Idle t db := fun k works => h.erased k works

theorem Alone.put (h : Alone t id db) {row next : DataSubjectRequest}
    (seen : db.requests.view t id = some row) (status : next.status = row.status) :
    Alone t id { db with requests := db.requests.put t id (some next) } := by
  refine ⟨h.requests.put _, h.artifacts, h.erased, fun k r held here => ?_⟩
  by_cases same : k = id
  · subst same
    simp only [Table.pending_put_same, Option.some.injEq] at here
    subst here
    by_cases mine : db.requests.holder k = some t
    · obtain ⟨before, there, is⟩ := h.clean k row mine (by rwa [Table.view_of_held mine] at seen)
      exact ⟨before, by simpa using there, is.trans status.symm⟩
    · rw [Table.view_of_not_held mine] at seen
      exact ⟨row, by simpa using seen, status.symm⟩
  · simp only [Table.holder_put_other same] at held
    exact absurd (h.requests k held) same

theorem Working.hasType (h : Working t id db) : HasType t id .erase db := by
  obtain ⟨r, before, here, -, kind, -⟩ := h.running
  exact ⟨r, by rwa [Table.view_of_held h.held], kind⟩

/-- A write that keeps what the erasure depends on. -/
theorem Working.put (h : Working t id db) {k : Uuid} {row next : DataSubjectRequest}
    (seen : db.requests.view t k = some row) (type : next.requestType = row.requestType)
    (status : next.status = row.status)
    (representative : next.representativeStatus = row.representativeStatus)
    (execution : row.executionStatus ≠ .ready → next.executionStatus ≠ .ready) :
    Working t id { db with requests := db.requests.put t k (some next) } := by
  by_cases same : id = k
  · subst same
    obtain ⟨r, before, here, there, kind, ok⟩ := h.running
    rw [Table.view_of_held h.held] at seen
    cases seen.symm.trans here
    refine ⟨by simp, next, before, by simp, by simpa using there, type.trans kind,
      type.trans ok.type, ⟨status.trans ok.status.1, ok.status.2⟩, execution ok.running, ?_⟩
    intro decided
    rw [type, representative]
    exact ok.entitled (by rwa [status] at decided)
  · refine ⟨?_, ?_⟩
    · simpa [Table.holder_put_other same] using h.held
    · simpa [Table.pending_put_other same] using h.running

/-- What the body of the savepoint keeps: `t` holds the erasure and works on nothing else. -/
structure Erasing (t : τ) (id : Uuid) (db : Db τ) : Prop where
  clean : Clean t db
  working : Working t id db
  only : WorksOnly t (· = id) db

theorem erasing_stable : (privacyContract C).Stable t (Erasing t id) := fun db db' held moved holds =>
  ⟨Mild.clean.stable db db' held.clean moved holds, working_stable db db' held.working moved holds,
    Mild.worksOnly.stable db db' held.only moved holds⟩

/-! ## The providers -/

/-- The statements of the providers. -/
def Statement.Minimises : Statement → Prop
  | .coreProviders _ | .artifactIdsMentioning _ | .lockArtifactMentioning _ _
  | .requestIdsMentioning _ | .lockRequestMentioning _ _ => True
  | .flushArtifact .eraseSubject _ loaded assigned => ∃ subject, assigned = loaded.minimised subject
  | .flushRequest _ loaded assigned => ∃ subject, assigned = loaded.minimised subject
  | _ => False

theorem Statement.Minimises.mild (h : s.Minimises) : s.IsMild := by
  cases s <;> first | trivial | skip
  obtain ⟨subject, rfl⟩ := h
  exact ⟨rfl, rfl⟩

theorem minimised_change (subject : Uuid) (a : ExportArtifact) :
    ArtifactChange .eraseSubject a (a.minimised subject) where
  request := rfl
  expires := rfl
  leased leased some := by
    by_cases owned : a.isOwnedBy subject = true
    · simp [ExportArtifact.minimised, owned] at some
    · have before := leased (by simpa [ExportArtifact.minimised, owned] using some)
      simpa [ExportArtifact.minimised, owned] using before
  renews := nofun
  final := by
    constructor
    · intro final
      simp only [ExportArtifact.minimised]
      split
      · rfl
      · exact final
    · intro erased
      simp only [ExportArtifact.minimised, ExportArtifact.isErased] at erased ⊢
      split
      · rfl
      · exact erased

theorem Statement.Minimises.needs (h : s.Minimises) : Needs C t s db := by
  cases s with
  | flushRequest k loaded assigned =>
      obtain ⟨subject, rfl⟩ := h
      exact ⟨rfl, rfl, rfl, fun _ differs => absurd rfl differs⟩
  | flushArtifact writer k loaded assigned =>
      cases writer with
      | eraseSubject =>
          obtain ⟨subject, rfl⟩ := h
          refine ⟨minimised_change subject loaded, fun _ reports differs => ?_⟩
          have either : (loaded.minimised subject).status = .cancelled ∨
              (loaded.minimised subject).status = loaded.status := by
            simp only [ExportArtifact.minimised]
            split
            · exact .inl rfl
            · exact .inr rfl
          rcases either with is | is
          · simp [is, ExportArtifactStatus.isReported] at reports
          · exact absurd is differs
      | _ => exact h.elim
  | _ => trivial

theorem Case.working (case : Case t s db db') (minimises : s.Minimises) (h : Working t id db) :
    Working t id db' := by
  cases case with
  | quiet | insertArtifact | touchArtifact | flushArtifact | noteCheck | markErased =>
      exact ⟨h.held, h.running⟩
  | lockRequest k row _ seen => exact h.put seen rfl rfl rfl fun running => running
  | flushRequest k loaded assigned row is seen =>
      subst is
      obtain ⟨subject, rfl⟩ := minimises
      refine h.put seen ?_ ?_ ?_ ?_ <;> simp [DataSubjectRequest.flush, DataSubjectRequest.minimised]
  | insertRequest k row is | transition k _ _ row is | review k _ _ _ row is | restore saved is
  | commit is | rollback is =>
      subst is
      exact minimises.elim

theorem erasing_keeps (case : Case t s db db') (minimises : s.Minimises) (h : Erasing t id db) :
    Erasing t id db' :=
  ⟨Mild.clean.keeps (C := ⟨True, True, True, fun _ => none⟩) case minimises.mild h.clean,
    case.working minimises h.working,
    Mild.worksOnly.keeps (C := ⟨True, True, True, fun _ => none⟩) case minimises.mild h.only⟩

theorem minimising_wp {α : Type} {p : Tx α} (only : p.Only Statement.Minimises)
    (start : Erasing t id db) :
    wp (machine τ) (privacyContract C) t p (fun _ => Erasing t id) db :=
  Terms.wp_only erasing_stable (fun h => h) (fun _ _ minimises _ _ => minimises.needs)
    (fun _ _ _ _ minimises held _ _ executed => erasing_keeps (exec_case executed) minimises held)
    only start

theorem only_minimiseExportArtifacts (subject : Uuid) :
    (minimiseExportArtifacts subject).Only Statement.Minimises := by
  refine only_bind (only_stmt.mpr trivial) fun ids => ?_
  refine only_bind (only_collect fun k _ => ?_) fun rows => ?_
  · exact only_bind (only_stmt.mpr trivial) fun _ => only_pure _
  · refine only_bind only_raiseIf fun _ => only_forEach fun row _ => ?_
    exact only_stmt.mpr ⟨subject, rfl⟩

theorem only_minimiseDsrWorkflow (subject : Uuid) :
    (minimiseDsrWorkflow subject).Only Statement.Minimises := by
  refine only_bind (only_stmt.mpr trivial) fun ids => ?_
  refine only_bind (only_collect fun k _ => ?_) fun rows => ?_
  · exact only_bind (only_stmt.mpr trivial) fun _ => only_pure _
  · exact only_forEach fun row _ => only_stmt.mpr ⟨subject, rfl⟩

/-- What is known once the providers have ended, well or not. -/
def Ended (t : τ) (id : Uuid) (ended : Except AppError Unit) (db : Db τ) : Prop :=
  Erasing t id db ∧ (ended = .ok () → db.erased.view t id = some ())

theorem markErased_wp (start : Erasing t id db) :
    wp (machine τ) (privacyContract C) t (sql (.markErased id)) (Ended t id) db := by
  refine Terms.wp_statement erasing_stable nofun (fun db held _ => ?_) ?_
    (fun e db held => ⟨held, nofun⟩) start
  · obtain ⟨r, before, here, -, kind, ok⟩ := held.working.running
    exact ⟨held.working.held, r, here, kind, ok.status.1⟩
  · intro db r db' held _ _ executed
    change exec t (.markErased id) db = some (r, db') at executed
    simp only [exec] at executed
    split at executed
    · cases executed
      refine ⟨⟨held.clean, ⟨held.working.held, held.working.running⟩, fun k works => ?_⟩,
        fun _ => by simp⟩
      by_contra other
      rw [Table.holder_put_other other] at works
      exact other (held.only k works)
    · cases executed

theorem providers_wp (subject : Uuid) (start : Erasing t id db) :
    wp (machine τ) (privacyContract C) t (do
      sql (.coreProviders id)
      minimiseExportArtifacts subject
      minimiseDsrWorkflow subject
      sql (.markErased id)) (Ended t id) db := by
  have fails : ∀ e db, Erasing t id db → Ended t id (.error e) db := fun e db held => ⟨held, nofun⟩
  refine wp_bind_always (minimising_wp (only_stmt.mpr trivial) start) (fun _ db held => ?_) fails
  refine wp_bind_always (minimising_wp (only_minimiseExportArtifacts subject) held)
    (fun _ db held => ?_) fails
  refine wp_bind_always (minimising_wp (only_minimiseDsrWorkflow subject) held)
    (fun _ db held => ?_) fails
  exact markErased_wp held

/-! ## The savepoint -/

/-- What a savepoint of `t` holds: the erasure, not executed yet. -/
structure SavedFrom (id : Uuid) (saved : Saved) : Prop where
  artifacts : saved.artifacts = []
  erased : saved.erased = []
  request : ∀ k v, saved.requests.lookup k = some v → k = id ∧ ∃ r, v = some r ∧
    r.requestType = .erase ∧ r.status = .approved ∧ r.executionStatus ≠ .ready ∧ r.IsEntitled

theorem savepoint_spec :
    Spec C t (fun db => Alone t id db ∧ Working t id db) (sql .savepoint)
      fun saved db => Erasing t id db ∧ SavedFrom id saved := by
  refine Terms.triple_stmt (alone_stable.and working_stable) nofun (fun _ _ _ => trivial) ?_
  rintro db saved db' ⟨alone, working⟩ holds - executed
  cases executed
  refine ⟨⟨alone.clean, working, fun k works => (alone.erased k works).elim⟩,
    alone.artifacts.own_eq_nil, alone.erased.own_eq_nil, fun k v found => ?_⟩
  obtain ⟨held, prepared⟩ := Table.mem_own.mp (Table.lookup_mem found)
  obtain rfl := alone.requests k held
  obtain ⟨r, before, here, -, kind, ok⟩ := working.running
  exact ⟨rfl, r, prepared.symm.trans here, kind, ok.status.1, ok.running, ok.entitled⟩

/-- Going back to the savepoint. -/
theorem rollbackTo_spec {saved : Saved} (from_ : SavedFrom id saved) :
    Spec C t (Erasing t id) (sql (.rollbackTo saved)) fun _ db =>
      Rested t db ∧ HasType t id .erase db := by
  have kept : ∀ db, Erasing t id db → ∀ k v, db.requests.holder k = some t →
      saved.requests.lookup k = some v →
      ∃ r before, v = some r ∧ db.requests.committed k = some before ∧ SavedOk r before := by
    intro db held k v mine found
    obtain ⟨rfl, r, is, kind, status, running, entitled⟩ := from_.request k v found
    obtain ⟨r', before, -, there, kind', ok⟩ := held.working.running
    exact ⟨r, before, is, there, kind.trans (kind'.symm.trans ok.type), ⟨status, ok.status.2⟩,
      running, entitled⟩
  refine Terms.triple_stmt erasing_stable (by simp)
    (fun db held _ => ⟨from_.artifacts, from_.erased, kept db held⟩) ?_
  intro db a db' held _ _ executed
  cases executed
  obtain ⟨r', before, -, there, kind, ok⟩ := held.working.running
  refine ⟨⟨fun k r mine here => ?_, fun k works => ?_⟩, ?_⟩
  · obtain ⟨was, found⟩ := Table.pending_restore mine here
    obtain ⟨r'', before', is, committed, ok⟩ := kept db held k (some r) was found
    cases is
    exact ⟨before', by simpa [Db.restore] using committed, ok.status.2.trans ok.status.1.symm⟩
  · simp only [Db.restore, from_.erased, Table.restore_nil] at works
    exact (Table.holder_rollback_eq_some works).2 (Table.holder_rollback_eq_some works).1
  · rcases Table.cell_restore_of_held saved.requests held.working.held with
      ⟨v, found, is⟩ | is
    · obtain ⟨-, r, rfl, kind, -⟩ := from_.request id v found
      exact ⟨r, by simp [Db.restore, Table.view, is], kind⟩
    · refine ⟨before, ?_, ok.type.symm.trans kind⟩
      have unheld : ((db.requests.cell id).rollback t).holder ≠ some t := by
        rw [Cell.holder_rollback]
        split
        · simp
        · assumption
      have committed : (db.requests.cell id).committed = some before := there
      simpa [Db.restore, Table.view, is, Cell.view, unheld] using committed

theorem runProviders_spec (subject : Uuid) :
    Spec C t (fun db => Alone t id db ∧ Working t id db) (runProviders id subject) fun ended db =>
      (ended = .ok () → Ended t id ended db) ∧
      (ended ≠ .ok () → Rested t db ∧ HasType t id .erase db) := by
  refine savepoint_spec.bind fun saved => Triple.assume fun from_ => ?_
  have providers : Spec C t (Erasing t id) (attempt do
      sql (.coreProviders id)
      minimiseExportArtifacts subject
      minimiseDsrWorkflow subject
      sql (.markErased id)) (Ended t id) := by
    intro db start
    refine wp_attempt (wp_mono ?_ (providers_wp subject start))
    intro r db held a is
    cases is
    exact held
  refine providers.bind fun ended => ?_
  match ended with
  | .ok () => exact .pure fun db held => ⟨fun _ => held, fun other => absurd rfl other⟩
  | .error e =>
      have back := (rollbackTo_spec (C := C) (t := t) from_).weaken
        (fun db (held : Ended t id (.error e) db) => held.1) fun _ _ held => held
      exact back.bind fun _ => .pure fun db held => ⟨nofun, fun _ => held⟩

/-! ## The erasure -/

/-- An erasure that is executed and ready to be fulfilled. -/
def IsExecuted (r : DataSubjectRequest) : Prop :=
  r.requestType = .erase ∧ r.status = .approved ∧ r.executionStatus = .ready

/-- What the erasure ends with: if it has executed anything, it is this request. -/
structure Executed (t : τ) (id : Uuid) (r : DataSubjectRequest) (db : Db τ) : Prop where
  clean : Clean t db
  known : Known t id r db
  only : WorksOnly t (fun k => k = id ∧ IsExecuted r) db

theorem Mild.executed {r : DataSubjectRequest} : Mild C t (Executed t id r) := by
  have all : Mild C t fun db => Clean t db ∧ Known t id r db ∧
      WorksOnly t (fun k => k = id ∧ IsExecuted r) db :=
    Mild.clean.and (Mild.known.and Mild.worksOnly)
  refine ⟨fun db db' held moved holds => ?_, fun case mild held => ?_⟩
  · obtain ⟨clean, known, only⟩ :=
      all.stable db db' ⟨held.clean, held.known, held.only⟩ moved holds
    exact ⟨clean, known, only⟩
  · obtain ⟨clean, known, only⟩ := all.keeps case mild ⟨held.clean, held.known, held.only⟩
    exact ⟨clean, known, only⟩

theorem lockRequest_spec :
    Spec C t (Alone t id) (sql (.lockRequest id)) fun found db =>
      Alone t id db ∧ ∀ r, found = some r → Locked t id r db ∧ Known t id r db := by
  refine Terms.triple_stmt alone_stable nofun (fun _ _ _ => trivial) ?_
  intro db a db' alone holds _ executed
  rcases lockRequest_cases executed with ⟨rfl, is⟩ | ⟨row, seen, -, free, is, rfl⟩
  · obtain rfl := Except.ok.inj is
    exact ⟨alone, fun r absent => by cases absent⟩
  · obtain rfl := Except.ok.inj is
    refine ⟨alone.put seen rfl, fun r same => ?_⟩
    obtain rfl := Option.some.inj same
    refine ⟨⟨by simp, by simp, ?_, holds.requests.entitled.view seen⟩,
      (holds.lockRequest seen free).known (by simp)⟩
    by_cases held : db.requests.holder id = some t
    · rw [Table.view_of_held held] at seen
      obtain ⟨before, there, status⟩ := alone.clean id row held seen
      obtain ⟨next, here, step⟩ := holds.requests.steps id t before held there
      cases seen.symm.trans here
      exact ⟨before, by simpa using there, step.type, status⟩
    · rw [Table.view_of_not_held held] at seen
      exact ⟨row, by simpa using seen, rfl, rfl⟩

theorem lockAndValidateRequest_spec :
    Spec C t (Alone t id) (lockAndValidateRequest id) fun r db =>
      (Alone t id db ∧ Locked t id r db ∧ Known t id r db) ∧ (r.requestType = .erase ∧
        (r.executionStatus ≠ .ready → r.status = .approved)) := by
  refine lockRequest_spec.bind fun found => Triple.orRaise.bind fun r => ?_
  refine Triple.raiseIf.bind fun _ => Triple.assume fun kind => ?_
  split
  · rename_i ready
    exact .pure fun db held => ⟨⟨held.1.1, held.1.2 r held.2⟩, not_not.mp kind,
      fun other => absurd ready other⟩
  · refine Triple.raiseIf.bind fun _ => Triple.raiseIf.bind fun _ => Triple.raiseIf.bind fun _ => ?_
    exact .pure fun db held => ⟨⟨held.1.1.1.1.1, held.1.1.1.1.2 r held.1.1.1.2⟩, not_not.mp kind,
      fun _ => not_not.mp held.1.1.2⟩

/-- A flush of the erasure that does not make it ready. -/
theorem flushRunning_spec (loaded assigned : DataSubjectRequest)
    (type : assigned.requestType = loaded.requestType) (status : assigned.status = loaded.status)
    (representative : assigned.representativeStatus = loaded.representativeStatus)
    (running : assigned.executionStatus ≠ .ready) :
    Spec C t (fun db => Alone t id db ∧ Working t id db) (sql (.flushRequest id loaded assigned))
      fun _ db => Alone t id db ∧ Working t id db := by
  refine Terms.triple_stmt (alone_stable.and working_stable) nofun
    (fun _ _ _ => ⟨type, status, representative, fun ready => absurd ready running⟩) ?_
  rintro db a db' ⟨alone, working⟩ holds - executed
  change exec t (.flushRequest id loaded assigned) db = some (.ok a, db') at executed
  simp only [exec] at executed
  split at executed
  · cases executed
    exact ⟨alone, working⟩
  · obtain ⟨r', flushes⟩ := flushed_eq executed
    rcases updateRequest_cases flushes with rfl | ⟨row, next, seen, changed, free, rfl⟩
    · exact ⟨alone, working⟩
    · cases changed
      have kept : (loaded.flush assigned row).status = row.status := by
        simp [DataSubjectRequest.flush, status]
      refine ⟨alone.put seen kept, working.put seen ?_ kept ?_ fun notReady => ?_⟩
      · simp [DataSubjectRequest.flush, type]
      · simp [DataSubjectRequest.flush, representative]
      · simp only [DataSubjectRequest.flush, written]
        split
        · exact notReady
        · exact running

theorem Locked.working {r : DataSubjectRequest} (h : Locked t id r db)
    (kind : r.requestType = .erase) (status : r.status = .approved)
    (running : r.executionStatus ≠ .ready) : Working t id db := by
  obtain ⟨before, there, type, same⟩ := h.before
  exact ⟨h.held, r, before, h.here, there, kind, type, ⟨status, same.trans status⟩, running,
    h.entitled⟩

/-- The flush after the providers. -/
theorem flushReady_spec (loaded : DataSubjectRequest) (now : Time)
    (kind : loaded.requestType = .erase) (status : loaded.status = .approved) :
    Spec C t (Ended t id (.ok ())) (sql (.flushRequest id loaded (loaded.markedReady now)))
      fun _ => Executed t id (loaded.markedReady now) := by
  have start : Mild C t (Executed t id (loaded.markedReady now)) := Mild.executed
  have flush : Spec C t (Executed t id (loaded.markedReady now))
      (sql (.flushRequest id loaded (loaded.markedReady now)))
      fun _ db => Executed t id (loaded.markedReady now) db ∧ True :=
    spec_mild start ⟨rfl, rfl⟩
      (fun db held _ => ⟨rfl, rfl, rfl, fun _ _ _ _ _ => held.known.executed ⟨kind, rfl⟩⟩)
      fun _ _ _ _ _ _ => trivial
  refine flush.weaken ?_ fun _ _ held => held.1
  rintro db ⟨erasing, erased⟩
  obtain ⟨row, seen, is⟩ := erasing.working.hasType
  exact ⟨erasing.clean, ⟨⟨row, seen, is.trans kind.symm⟩, fun _ => erased rfl⟩,
    fun k works => ⟨erasing.only k works, kind, status, rfl⟩⟩

/-- The flush after a provider has failed. -/
theorem flushFailed_spec (loaded : DataSubjectRequest) (reasonCode : String) (now : Time)
    (kind : loaded.requestType = .erase) :
    Spec C t (fun db => Rested t db ∧ HasType t id .erase db)
      (sql (.flushRequest id loaded (loaded.markedFailed reasonCode now)))
      fun _ => Executed t id (loaded.markedFailed reasonCode now) := by
  have start : Mild C t fun db => Rested t db ∧ HasType t id .erase db :=
    Mild.rested.and Mild.hasType
  have flush : Spec C t (fun db => Rested t db ∧ HasType t id .erase db)
      (sql (.flushRequest id loaded (loaded.markedFailed reasonCode now)))
      fun _ db => (Rested t db ∧ HasType t id .erase db) ∧ True :=
    spec_mild start ⟨rfl, rfl⟩ (fun _ _ _ => ⟨rfl, rfl, rfl, nofun⟩) fun _ _ _ _ _ _ => trivial
  refine flush.weaken (fun _ held => held) ?_
  rintro _ db ⟨⟨rested, row, seen, is⟩, -⟩
  exact ⟨rested.clean, ⟨⟨row, seen, is.trans kind.symm⟩, nofun⟩,
    fun k works => (rested.idle k works).elim⟩

theorem executeCoreErasure_spec (call : EraseCall) (now : Time) :
    Spec C t (Alone t call.requestId) (executeCoreErasure call now)
      (Executed t call.requestId) := by
  refine lockAndValidateRequest_spec.bind fun request => Triple.assume fun ⟨kind, approved⟩ => ?_
  split
  · refine .pure fun db held => ?_
    exact ⟨held.1.clean, held.2.2, fun k works => (held.1.idle k works).elim⟩
  · exact .raise
  · rename_i subject _ running
    have status := approved running
    refine Triple.bind (B := fun _ db => Alone t call.requestId db ∧ Working t call.requestId db)
      ?_ fun _ => ?_
    · exact (flushRunning_spec request (request.markedProcessing now) rfl rfl rfl (by nofun)).weaken
        (fun db held => ⟨held.1, held.2.1.working kind status running⟩) fun _ _ held => held
    refine (runProviders_spec subject).bind fun ended => ?_
    match ended with
    | .ok () =>
        let loaded := (request.markedProcessing now).minimised subject
        have flushed : Spec C t (Ended t call.requestId (.ok ()))
            (sql (.flushRequest call.requestId loaded (loaded.markedReady now)))
            fun _ => Executed t call.requestId (loaded.markedReady now) :=
          flushReady_spec loaded now kind status
        refine (flushed.weaken (fun db held => held.1 rfl) fun _ _ held => held).bind fun _ => ?_
        exact .pure fun _ held => held
    | .error e =>
        let loaded := request.markedProcessing now
        have flushed : Spec C t (fun db => Rested t db ∧ HasType t call.requestId .erase db)
            (sql (.flushRequest call.requestId loaded
              (loaded.markedFailed (call.failureReasonCode e) now)))
            fun _ => Executed t call.requestId
              (loaded.markedFailed (call.failureReasonCode e) now) :=
          flushFailed_spec loaded _ now kind
        refine (flushed.weaken (fun db held => held.2 nofun) fun _ _ held => held).bind fun _ => ?_
        exact .pure fun _ held => held

theorem Executed.ready {r : DataSubjectRequest} (h : Executed t id r db) (is : IsExecuted r) :
    TransitionReady t id r.requestType .fulfilled db :=
  ⟨h.clean, h.known.type, fun _ => h.known.executed ⟨is.1, is.2.2⟩,
    fun k works => ⟨(h.only k works).1, rfl⟩⟩

theorem spec_still {A : Db τ → Prop} (stable : (privacyContract C).Stable t A) (open_ : s ≠ .commit)
    (plain : s.isPlain = true) (still : ∀ db r db', exec t s db = some (r, db') → db' = db) :
    Spec C t A (sql s) fun _ => A :=
  Terms.triple_stmt stable open_ (fun _ _ _ => needs_of_plain plain)
    fun db _ db' held _ _ executed => still db _ db' executed ▸ held

theorem executeApprovedErasureRequest_spec (call : EraseCall) :
    Spec C t (Alone t call.requestId) (executeApprovedErasureRequest call)
      fun _ => Committable t := by
  have clock : Spec C t (Alone t call.requestId) (sql .now) fun _ => Alone t call.requestId :=
    spec_still alone_stable nofun rfl fun _ _ _ executed => by cases executed; rfl
  have executor : Spec C t (Alone t call.requestId) (sql (.lockExecutor call.executorUserId))
      fun _ => Alone t call.requestId :=
    spec_still alone_stable nofun rfl fun _ _ _ executed => by cases executed; rfl
  refine clock.bind fun now => executor.bind fun _ => ?_
  split
  · exact .raise
  · refine lockRequest_spec.bind fun found => Triple.orRaise.bind fun locked => ?_
    refine Triple.raiseIf.bind fun _ => Triple.bind (B := fun request db =>
      Executed t call.requestId request db) ?_ fun request => ?_
    · exact (executeCoreErasure_spec call now).weaken (fun db held => held.1.1.1) fun _ _ held => held
    refine (spec_plain Mild.executed rfl).bind fun _ => (getRequest_spec Mild.executed).bind fun _ => ?_
    have known : Mild C t (Executed t call.requestId request) := Mild.executed
    split
    · rename_i executed
      have done : IsExecuted request := executed
      refine Triple.bind (B := fun _ => Executed t call.requestId request) ?_ fun fulfilNow =>
        (getRequest_spec known).bind fun _ => ?_
      · exact (spec_plain known rfl).weaken (fun _ held => held.1) fun _ _ held => held
      · exact transitionLoaded_spec.weaken (fun db held => held.1.ready done) fun _ _ held => held
    · rename_i notExecuted
      exact .pure fun db held k works => absurd (held.1.only k works).2 notExecuted

end SaasTemplate.Privacy
