import SaasTemplate.Privacy.Discipline

/-! # The request operations keep the contract

Most statements are plain: they need nothing and change neither a status nor the type of a
request nor the erasures. An assertion that survives them is `Mild`. What an operation has
to know at a transition is what its request said when it was read.
-/

set_option linter.unusedSectionVars false

namespace SaasTemplate.Privacy

open SaasTemplate.Isolation SaasTemplate.Isolation.Prog

open SaasTemplate.Outbox (written written_same written_of_ne written_self)

variable {τ : Type} [DecidableEq τ] {t : τ} {s : Statement} {db db' : Db τ} {C : Concerns τ}
  {α : Type} {id : Uuid}

/-- A program of client `t` under the contract. -/
abbrev Spec (C : Concerns τ) (t : τ) (A : Db τ → Prop) (p : Tx α) (B : α → Db τ → Prop) : Prop :=
  Triple (machine τ) (privacyContract C) t A p B

/-! ## Mild assertions -/

/-- Statements that need nothing and change no status. -/
def Statement.isPlain : Statement → Bool
  | .insertRequest _ _ | .transitionStatusIfCurrent _ _ _
  | .updateRepresentativeIfCurrent _ _ _ _ | .flushRequest _ _ _ | .insertArtifact _ _
  | .flushArtifact _ _ _ _ | .markErased _ | .noteCheck _ _ | .rollbackTo _ | .commit | .rollback =>
      false
  | _ => true

/-- Statements that change neither the type nor the status of a request, nor erasures. -/
def Statement.IsMild : Statement → Prop
  | .insertRequest _ _ | .transitionStatusIfCurrent _ _ _ | .markErased _ | .rollbackTo _
  | .commit | .rollback => False
  | .flushRequest _ loaded assigned =>
      assigned.requestType = loaded.requestType ∧ assigned.status = loaded.status
  | _ => True

theorem Statement.isMild_of_plain (h : s.isPlain = true) : s.IsMild := by
  cases s <;> trivial

theorem needs_of_plain (h : s.isPlain = true) : Needs C t s db := by
  cases s <;> trivial

theorem Statement.open_of_mild (h : s.IsMild) : s ≠ .commit := by
  rintro rfl
  exact h

/-- Rows that keep the type and the status of what a transaction sees. -/
structure Retains (t : τ) (R R' : Table Uuid τ DataSubjectRequest) : Prop where
  committed : ∀ k, R'.committed k = R.committed k
  viewed : ∀ k next, R'.view t k = some next → R'.holder k = some t →
    ∃ row, R.view t k = some row ∧ next.requestType = row.requestType ∧ next.status = row.status
  seen : ∀ k row, R.view t k = some row → ∃ next, R'.view t k = some next ∧
    next.requestType = row.requestType ∧ next.status = row.status

theorem Retains.refl (t : τ) (R : Table Uuid τ DataSubjectRequest) : Retains t R R :=
  ⟨fun _ => rfl, fun _ next here _ => ⟨next, here, rfl, rfl⟩, fun _ row here => ⟨row, here, rfl, rfl⟩⟩

theorem retains_put {R : Table Uuid τ DataSubjectRequest} {row next : DataSubjectRequest}
    (seen : R.view t id = some row) (type : next.requestType = row.requestType)
    (status : next.status = row.status) : Retains t R (R.put t id (some next)) where
  committed k := by simp
  viewed k r here held := by
    by_cases same : k = id
    · subst same
      simp only [Table.view_put_same, Option.some.injEq] at here
      exact ⟨row, seen, here ▸ type, here ▸ status⟩
    · rw [Table.view_put_other same] at here
      exact ⟨r, here, rfl, rfl⟩
  seen k r here := by
    by_cases same : k = id
    · subst same
      cases seen.symm.trans here
      exact ⟨next, by simp, type, status⟩
    · exact ⟨r, by rwa [Table.view_put_other same], rfl, rfl⟩

theorem Case.mild (case : Case t s db db') (mild : s.IsMild) :
    Retains t db.requests db'.requests ∧ db'.erased = db.erased := by
  cases case with
  | quiet | insertArtifact | touchArtifact | flushArtifact | noteCheck => exact ⟨.refl t _, rfl⟩
  | lockRequest id row _ seen => exact ⟨retains_put seen rfl rfl, rfl⟩
  | review id _ _ values row is seen =>
      exact ⟨retains_put seen (by cases values <;> rfl) (by cases values <;> rfl), rfl⟩
  | flushRequest id loaded assigned row is seen =>
      subst is
      exact ⟨retains_put seen (by simp [DataSubjectRequest.flush, mild.1])
        (by simp [DataSubjectRequest.flush, mild.2]), rfl⟩
  | insertRequest id row is | transition id _ _ row is | markErased request is | restore saved is
  | commit is | rollback is =>
      subst is
      exact mild.elim

/-- An assertion of `t` that neither the others nor its own mild statements break. -/
structure Mild (C : Concerns τ) (t : τ) (A : Db τ → Prop) : Prop where
  stable : (privacyContract C).Stable t A
  keeps : ∀ {s db db'}, Case t s db db' → s.IsMild → A db → A db'

theorem Mild.and {A B : Db τ → Prop} (first : Mild C t A) (second : Mild C t B) :
    Mild C t fun db => A db ∧ B db :=
  ⟨first.stable.and second.stable, fun case mild held =>
    ⟨first.keeps case mild held.1, second.keeps case mild held.2⟩⟩

theorem Mild.true : Mild C t fun _ => True := ⟨fun _ _ _ _ _ => trivial, fun _ _ _ => trivial⟩

theorem Mild.clean : Mild C t (Clean t) where
  stable db db' clean moved _ k r held here := by
    obtain ⟨before, same⟩ := moved.stays.requests.keeps.cell_of_held held
    rw [Table.pending_of_cell same] at here
    rw [Table.committed_of_cell same]
    exact clean k r before here
  keeps {s db db'} case mild clean k r held here := by
    obtain ⟨retains, -⟩ := case.mild mild
    obtain ⟨row, seen, -, status⟩ := retains.viewed k r (by rwa [Table.view_of_held held]) held
    rw [retains.committed, status]
    by_cases before : db.requests.holder k = some t
    · exact clean k row before (by rwa [Table.view_of_held before] at seen)
    · exact ⟨row, by rwa [Table.view_of_not_held before] at seen, rfl⟩

/-- `t` sees the request, and its type. -/
def HasType (t : τ) (id : Uuid) (type : DataSubjectRequestType) (db : Db τ) : Prop :=
  ∃ row, db.requests.view t id = some row ∧ row.requestType = type

theorem Mild.hasType {type : DataSubjectRequestType} : Mild C t (HasType t id type) where
  stable := by
    rintro db db' ⟨row, seen, is⟩ moved -
    by_cases held : db.requests.holder id = some t
    · refine ⟨row, ?_, is⟩
      rwa [Table.view, moved.stays.requests.keeps.cell held]
    · rw [Table.view_of_not_held held] at seen
      obtain ⟨next, there, path⟩ := moved.stays.requests.evolves id row seen
      refine ⟨next, ?_, path.type.trans is⟩
      rwa [Table.view_of_not_held (moved.stays.requests.keeps.not_held held)]
  keeps := by
    rintro s db db' case mild ⟨row, seen, is⟩
    obtain ⟨next, there, type, -⟩ := (case.mild mild).1.seen id row seen
    exact ⟨next, there, type.trans is⟩

theorem Mild.erased : Mild C t fun db => db.erased.view t id = some () where
  stable := by
    intro db db' seen moved _
    by_cases held : db.erased.holder id = some t
    · rwa [Table.view, moved.stays.erased.keeps.cell held]
    · change db.erased.view t id = some () at seen
      rw [Table.view_of_not_held held] at seen
      obtain ⟨⟨⟩, there, -⟩ := moved.stays.erased.evolves id () seen
      rwa [Table.view_of_not_held (moved.stays.erased.keeps.not_held held)]
  keeps case mild seen := by rwa [(case.mild mild).2]

/-- The erasures that `t` works on are among those that meet `P`. -/
def WorksOnly (t : τ) (P : Uuid → Prop) (db : Db τ) : Prop :=
  ∀ k, db.erased.holder k = some t → P k

theorem Mild.worksOnly {P : Uuid → Prop} : Mild C t (WorksOnly t P) where
  stable _ _ only moved _ k held := only k (moved.stays.erased.keeps.held_iff.mp held)
  keeps case mild only := by
    unfold WorksOnly
    rwa [(case.mild mild).2]

/-- `t` works on no erasure. -/
abbrev Idle (t : τ) : Db τ → Prop := WorksOnly t fun _ => False

theorem Mild.imp {A : Db τ → Prop} {fact : Prop} (h : Mild C t A) :
    Mild C t fun db => fact → A db :=
  ⟨fun db db' held moved holds known => h.stable db db' (held known) moved holds,
    fun case mild held known => h.keeps case mild (held known)⟩

/-! ## Statements -/

/-- One statement. -/
theorem spec_sql {A : Db τ → Prop} {B : Answer s → Db τ → Prop} (h : Mild C t A)
    (open_ : s ≠ .commit) (needs : ∀ db, A db → Inv C db → Needs C t s db)
    (effect : ∀ db a db', A db → Inv C db → Allowed C t s db → exec t s db = some (.ok a, db') →
      B a db') :
    Spec C t A (sql s) B :=
  Terms.triple_stmt h.stable open_ needs effect

/-- A mild statement, and what its answer says. -/
theorem spec_mild {A : Db τ → Prop} {B : Answer s → Db τ → Prop} (h : Mild C t A)
    (mild : s.IsMild) (needs : ∀ db, A db → Inv C db → Needs C t s db)
    (answers : ∀ db a db', A db → Inv C db → exec t s db = some (.ok a, db') → B a db') :
    Spec C t A (sql s) fun a db => A db ∧ B a db :=
  spec_sql h (Statement.open_of_mild mild) needs fun db a db' held holds _ executed =>
    ⟨h.keeps (exec_case executed) mild held, answers db a db' held holds executed⟩

theorem spec_plain {A : Db τ → Prop} (h : Mild C t A) (plain : s.isPlain = true) :
    Spec C t A (sql s) fun _ => A :=
  (spec_mild (B := fun _ _ => True) h (Statement.isMild_of_plain plain)
    (fun _ _ _ => needs_of_plain plain) fun _ _ _ _ _ _ => trivial).weaken (fun _ held => held)
      fun _ _ held => held.1

/-- What a version of a request says for good. -/
structure Known (t : τ) (id : Uuid) (r : DataSubjectRequest) (db : Db τ) : Prop where
  type : HasType t id r.requestType db
  executed : r.requestType = .erase ∧ r.executionStatus = .ready → db.erased.view t id = some ()

theorem Mild.known {r : DataSubjectRequest} : Mild C t (Known t id r) := by
  have both : Mild C t fun db => HasType t id r.requestType db ∧
      (r.requestType = .erase ∧ r.executionStatus = .ready → db.erased.view t id = some ()) :=
    Mild.hasType.and Mild.erased.imp
  refine ⟨fun db db' held moved holds => ?_, fun case mild held => ?_⟩
  · obtain ⟨type, executed⟩ := both.stable db db' ⟨held.type, held.executed⟩ moved holds
    exact ⟨type, executed⟩
  · obtain ⟨type, executed⟩ := both.keeps case mild ⟨held.type, held.executed⟩
    exact ⟨type, executed⟩

theorem Inv.known (h : Inv C db) {r : DataSubjectRequest} (seen : db.requests.view t id = some r) :
    Known t id r db :=
  ⟨⟨r, seen, rfl⟩, fun done => h.erased.view seen done.1 (.inl done.2)⟩

theorem getRequest_spec {A : Db τ → Prop} (h : Mild C t A) :
    Spec C t A (getRequest id) fun r db => A db ∧ Known t id r db := by
  have read : Spec C t A (sql (.requestById id)) fun found db =>
      A db ∧ ∀ r, found = some r → Known t id r db := by
    refine spec_mild h trivial (fun _ _ _ => trivial) fun db a db' _ holds executed r is => ?_
    cases executed
    exact holds.known is
  refine read.bind fun found => Triple.orRaise.weaken (fun _ held => held) fun r db held => ?_
  exact ⟨held.1.1, held.1.2 r held.2⟩

/-! ## Transitions -/

/-- What a transition of `t` finds. -/
structure TransitionReady (t : τ) (id : Uuid) (kind : DataSubjectRequestType)
    (target : DataSubjectRequestStatus) (db : Db τ) : Prop where
  clean : Clean t db
  type : HasType t id kind db
  executed : target = .fulfilled ∧ kind = .erase → db.erased.view t id = some ()
  only : WorksOnly t (fun k => k = id ∧ target = .fulfilled) db

theorem Mild.transitionReady {kind : DataSubjectRequestType} {target : DataSubjectRequestStatus} :
    Mild C t (TransitionReady t id kind target) := by
  have all : Mild C t fun db => Clean t db ∧ HasType t id kind db ∧
      (target = .fulfilled ∧ kind = .erase → db.erased.view t id = some ()) ∧
      WorksOnly t (fun k => k = id ∧ target = .fulfilled) db :=
    Mild.clean.and (Mild.hasType.and (Mild.erased.imp.and Mild.worksOnly))
  refine ⟨fun db db' held moved holds => ?_, fun case mild held => ?_⟩
  · obtain ⟨clean, type, executed, only⟩ :=
      all.stable db db' ⟨held.clean, held.type, held.executed, held.only⟩ moved holds
    exact ⟨clean, type, executed, only⟩
  · obtain ⟨clean, type, executed, only⟩ :=
      all.keeps case mild ⟨held.clean, held.type, held.executed, held.only⟩
    exact ⟨clean, type, executed, only⟩

/-- `t` may commit: what it has erased is fulfilled. -/
def Committable (t : τ) (db : Db τ) : Prop :=
  ∀ k, db.erased.holder k = some t → db.requests.holder k = some t ∧
    ∃ r, db.requests.pending k = some r ∧ r.status = .fulfilled

theorem Mild.committable : Mild C t (Committable t) where
  stable db db' held moved _ k works := by
    obtain ⟨mine, r, here, status⟩ := held k (moved.stays.erased.keeps.held_iff.mp works)
    have same := moved.stays.requests.keeps.cell mine
    rw [Table.holder_of_cell same, Table.pending_of_cell same]
    exact ⟨mine, r, here, status⟩
  keeps {s db db'} case mild held k works := by
    obtain ⟨retains, same⟩ := case.mild mild
    rw [same] at works
    obtain ⟨mine, r, here, status⟩ := held k works
    obtain ⟨next, seen, -, kept⟩ := retains.seen k r (by rwa [Table.view_of_held mine])
    have still : db'.requests.holder k = some t := by
      cases case with
      | lockRequest j row | review j _ _ _ row | flushRequest j _ _ row =>
          by_cases same : k = j
          · subst same
            simp
          · simpa [Table.holder_put_other same] using mine
      | insertRequest j row is | transition j _ _ row is | markErased request is
      | restore saved is | commit is | rollback is =>
          subst is
          exact mild.elim
      | _ => exact mine
    exact ⟨still, next, by rwa [Table.view_of_held still] at seen, kept.trans status⟩

theorem Idle.committable (h : Idle t db) : Committable t db := fun k works => (h k works).elim

/-- What `t` sees of a request has the status of the committed version. -/
theorem Clean.view (h : Clean t db) {row r : DataSubjectRequest}
    (seen : db.requests.view t id = some row) (here : db.requests.committed id = some r) :
    r.status = row.status := by
  by_cases held : db.requests.holder id = some t
  · obtain ⟨before, there, status⟩ := h id row held (by rwa [Table.view_of_held held] at seen)
    cases here.symm.trans there
    exact status
  · rw [Table.view_of_not_held held] at seen
    cases here.symm.trans seen
    rfl

/-- The conditional `UPDATE` either changes the status or finds it changed. -/
theorem transition_spec {kind : DataSubjectRequestType} {expected : DataSubjectRequestStatus}
    (values : DataSubjectRequest.Transition)
    (listed : values.nextStatus ∈ expected.allowedTransitions)
    (approvable : values.nextStatus = .approved → kind.isApprovable = true) :
    Spec C t (TransitionReady t id kind values.nextStatus)
      (sql (.transitionStatusIfCurrent id expected values)) fun updated db =>
        updated.isSome = true → Committable t db := by
  refine spec_sql Mild.transitionReady nofun (fun db held holds => ⟨listed, ?_⟩) ?_
  · rintro row seen rfl
    obtain ⟨viewed, again, is⟩ := held.type
    cases seen.symm.trans again
    exact ⟨fun r here => held.clean.view seen here, fun approves => is ▸ approvable approves,
      fun fulfils erases => held.executed ⟨fulfils, is ▸ erases⟩, fun works => (held.only id works).2⟩
  · intro db a db' held _ _ executed some
    obtain ⟨⟨out, R⟩, updated, is⟩ := Option.map_eq_some_iff.mp executed
    cases is
    rcases Table.update_cases updated with
      ⟨-, failed | ⟨is, -⟩⟩ | ⟨row, next, seen, changed, -, rfl, -⟩
    · cases failed
    · cases is
      cases some
    · obtain ⟨-, rfl⟩ := updateIf_eq changed
      intro k works
      obtain ⟨rfl, fulfils⟩ := held.only k works
      exact ⟨by simp, values.apply row, by simp, fulfils⟩

theorem transitionLoaded_spec {request : DataSubjectRequest} {target : DataSubjectRequestStatus}
    {reviewer : Option Uuid} {reasonCode : Option String} {referenceNow : Time}
    {executionVerified : Bool} :
    Spec C t (TransitionReady t id request.requestType target)
      (transitionLoaded id request target reviewer reasonCode referenceNow executionVerified)
      fun _ => Committable t := by
  refine Triple.raiseIf.bind fun _ => Triple.assume fun _ => ?_
  refine Triple.raiseIf.bind fun _ => Triple.assume fun unlisted => ?_
  refine Triple.raiseIf.bind fun _ => Triple.assume fun unapprovable => ?_
  refine Triple.raiseIf.bind fun _ => Triple.assume fun _ => ?_
  have listed : target ∈ request.status.allowedTransitions := not_not.mp unlisted
  have approvable : target = .approved → request.requestType.isApprovable = true := by
    intro approves
    simpa [approves] using unapprovable
  refine (transition_spec ⟨target, reviewer, reasonCode, referenceNow⟩ listed approvable).bind fun updated => ?_
  cases updated with
  | none =>
      have fails : Spec C t (fun _ => True) (getRequest id >>= fun latest =>
          (raise (.conflict ("Data subject request status changed during transition; " ++
            s!"current status is '{statusText latest.status}'")) : Tx DataSubjectRequest))
          fun _ => Committable t :=
        (getRequest_spec Mild.true).bind fun _ => Triple.raise
      exact fails.weaken (fun _ _ => trivial) fun _ _ held => held
  | some updated =>
      have audited : Spec C t (Committable t) (sql .recordAuditEvent >>= fun _ => pure updated)
          fun _ => Committable t :=
        (spec_plain Mild.committable rfl).bind fun _ => Triple.pure fun _ held => held
      intro db held
      exact audited db (held rfl)

/-! ## The operations but the erasure -/

/-- What a transaction starts with: it has changed nothing. -/
structure Rested (t : τ) (db : Db τ) : Prop where
  clean : Clean t db
  idle : Idle t db

theorem Mild.rested : Mild C t (Rested t) := by
  have both : Mild C t fun db => Clean t db ∧ Idle t db := Mild.clean.and Mild.worksOnly
  refine ⟨fun db db' held moved holds => ?_, fun case mild held => ?_⟩
  · obtain ⟨clean, idle⟩ := both.stable db db' ⟨held.clean, held.idle⟩ moved holds
    exact ⟨clean, idle⟩
  · obtain ⟨clean, idle⟩ := both.keeps case mild ⟨held.clean, held.idle⟩
    exact ⟨clean, idle⟩

/-- A request that was read is ready for a transition that fulfils no erasure too early. -/
theorem Rested.ready {r : DataSubjectRequest} {target : DataSubjectRequestStatus}
    (h : Rested t db) (known : Known t id r db)
    (executed : target = .fulfilled → r.requestType = .erase → r.executionStatus = .ready) :
    TransitionReady t id r.requestType target db :=
  ⟨h.clean, known.type, fun both => known.executed ⟨both.2, executed both.1 both.2⟩,
    fun k works => (h.idle k works).elim⟩

theorem transitionStatus_spec (target : DataSubjectRequestStatus) (reviewer : Option Uuid)
    (reasonCode : Option String) :
    Spec C t (Rested t) (transitionStatus id target reviewer reasonCode)
      fun _ => Committable t := by
  refine Triple.raiseIf.bind fun _ => Triple.assume fun open_ => ?_
  refine (spec_plain Mild.rested rfl).bind fun now => ?_
  refine (getRequest_spec Mild.rested).bind fun request => ?_
  exact transitionLoaded_spec.weaken
    (fun db held => held.1.ready held.2 fun fulfils => absurd fulfils open_) fun _ _ held => held

theorem cancelOwnRequest_spec (requester : Uuid) :
    Spec C t (Rested t) (cancelOwnRequest id requester) fun _ => Committable t := by
  have read : Spec C t (Rested t) (sql (.requestForRequester id requester)) fun found db =>
      Rested t db ∧ ∀ r, found = some r → Known t id r db := by
    refine spec_mild Mild.rested trivial (fun _ _ _ => trivial) fun db a db' _ holds executed r is => ?_
    cases executed
    exact holds.known (Option.filter_eq_some_iff.mp is).1
  refine read.bind fun found => Triple.orRaise.bind fun request => ?_
  refine Triple.raiseIf.bind fun _ => ?_
  have known : Mild C t fun db => Rested t db ∧ Known t id request db := Mild.rested.and Mild.known
  have rest : Spec C t (fun db => Rested t db ∧ Known t id request db) (do
      let referenceNow ← sql .now
      let _ ← getRequest id
      transitionLoaded id request .cancelled (some requester) none referenceNow false)
      fun _ => Committable t := by
    refine (spec_plain known rfl).bind fun now => (getRequest_spec known).bind fun _ => ?_
    exact transitionLoaded_spec.weaken (fun db held => held.1.1.ready held.1.2 nofun)
      fun _ _ held => held
  exact rest.weaken (fun db held => ⟨held.1.1.1, held.1.1.2 request held.1.2⟩) fun _ _ held => held

theorem review_spec (request : DataSubjectRequest) (values : DataSubjectRequest.Review) :
    Spec C t (Rested t) (reviewRepresentative id request values) fun _ => Committable t := by
  refine Triple.raiseIf.bind fun _ => Triple.assume fun _ => ?_
  refine Triple.raiseIf.bind fun _ => Triple.assume fun reviewable => ?_
  have updates : Spec C t (Rested t) (sql (.updateRepresentativeIfCurrent id request.status
      request.representativeStatus values)) fun _ db => Rested t db ∧ True :=
    spec_mild Mild.rested trivial (fun _ _ _ => by simpa [Needs] using reviewable)
      fun _ _ _ _ _ _ => trivial
  refine updates.bind fun updated => Triple.assume fun _ => ?_
  cases updated with
  | none => exact (getRequest_spec Mild.rested).bind fun latest => Triple.raiseIf.bind fun _ => .raise
  | some updated =>
      exact (spec_plain Mild.rested rfl).bind fun _ => .pure fun _ held => held.idle.committable

theorem reviewed_spec (values : Time → DataSubjectRequest.Review) :
    Spec C t (Rested t) (do
      let referenceNow ← sql .now
      let request ← getRequest id
      reviewRepresentative id request (values referenceNow)) fun _ => Committable t := by
  refine (spec_plain Mild.rested rfl).bind fun now => (getRequest_spec Mild.rested).bind fun request => ?_
  exact (review_spec request (values now)).weaken (fun _ held => held.1) fun _ _ held => held

theorem rejectRepresentativeAuthority_spec (reasonCode : String) :
    Spec C t (Rested t) (rejectRepresentativeAuthority id reasonCode) fun _ => Committable t := by
  refine (getRequest_spec Mild.rested).bind fun request => ?_
  exact (review_spec request _).weaken (fun _ held => held.1) fun _ _ held => held

theorem existingSubmission_spec (call : SubmitCall) (now : Time) :
    Spec C t (Idle t) (existingSubmission call now) fun _ => Idle t := by
  unfold existingSubmission
  split
  · exact .pure fun _ held => held
  · refine (spec_plain Mild.worksOnly rfl).bind fun _ =>
      (spec_plain Mild.worksOnly rfl).bind fun existing => ?_
    split
    · exact .pure fun _ held => held
    · split
      · exact .pure fun _ held => held
      · exact .raise

theorem insertRequest_spec {row : DataSubjectRequest} (submitted : row.status = .submitted)
    (notStarted : row.executionStatus = .notStarted) :
    Spec C t (Idle t) (sql (.insertRequest id row)) fun _ => Idle t := by
  refine spec_sql Mild.worksOnly nofun (fun _ _ _ => ⟨submitted, notStarted⟩) ?_
  intro db a db' held _ _ executed
  obtain ⟨⟨out, R⟩, -, is⟩ := Option.map_eq_some_iff.mp executed
  cases is
  exact held

theorem submitRequest_spec (call : SubmitCall) :
    Spec C t (Idle t) (submitRequest call) fun _ => Idle t := by
  refine (spec_plain Mild.worksOnly rfl).bind fun now => ?_
  refine Triple.raiseIf.bind fun _ => Triple.assume fun _ => ?_
  split
  · exact .raise
  · split
    · exact .raise
    · refine Triple.raiseIf.bind fun _ => Triple.assume fun _ => ?_
      refine (existingSubmission_spec call now).bind fun existing => ?_
      split
      · exact .pure fun _ held => held
      · refine (spec_plain Mild.worksOnly rfl).bind fun createdAt => ?_
        refine (insertRequest_spec rfl rfl).bind fun _ => ?_
        refine (spec_plain Mild.worksOnly rfl).bind fun request => ?_
        exact (spec_plain Mild.worksOnly rfl).bind fun _ => .pure fun _ held => held

theorem ensureExecutionReadyForFulfilment_spec (request : DataSubjectRequest) {A : Db τ → Prop}
    (h : Mild C t A) (clean : ∀ db, A db → Clean t db) :
    Spec C t A (ensureExecutionReadyForFulfilment id request) fun _ db => A db ∧
      (request.requestType = .erase → request.executionStatus = .ready) := by
  refine Triple.raiseIf.bind fun _ => Triple.assume fun _ => ?_
  split
  · refine Triple.raiseIf.weaken (fun _ held => held) fun _ db held => ⟨held.1, fun _ => ?_⟩
    exact not_not.mp held.2
  · rename_i other
    refine (spec_plain h rfl).bind fun artifacts => (spec_plain h rfl).bind fun now => ?_
    refine Triple.raiseIf.bind fun _ => Triple.assume fun _ => ?_
    have noted : Spec C t A (sql (.noteCheck id now)) fun _ db => A db ∧ True :=
      spec_mild h trivial (fun db held _ => clean db held) fun _ _ _ _ _ _ => trivial
    exact noted.weaken (fun _ held => held) fun _ _ held => ⟨held.1, fun is => absurd is other⟩

theorem fulfilRequest_spec (reviewer : Uuid) :
    Spec C t (Rested t) (fulfilRequest id reviewer) fun _ => Committable t := by
  refine (getRequest_spec Mild.rested).bind fun request => ?_
  have known : Mild C t fun db => Rested t db ∧ Known t id request db := Mild.rested.and Mild.known
  refine Triple.raiseIf.bind fun _ => Triple.assume fun _ => ?_
  refine (ensureExecutionReadyForFulfilment_spec request known fun db held => held.1.clean).bind
    fun _ => Triple.assume fun executed => ?_
  refine (spec_plain known rfl).bind fun now => (getRequest_spec known).bind fun _ => ?_
  exact transitionLoaded_spec.weaken (fun db held => held.1.1.ready held.1.2 fun _ => executed)
    fun _ _ held => held

end SaasTemplate.Privacy
