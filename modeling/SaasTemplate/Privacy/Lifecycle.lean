import SaasTemplate.Privacy.ArtifactOperations

/-! # The life of a request, and truthful fulfilment

Every operation keeps the contract, so every run does. The transitions of requests and the
erasures follow whatever the schedule. A fulfilled export has a usable artifact as long as
none is taken away between the check and the commit; the schedule at the end expires one.
-/

set_option linter.unusedSectionVars false

namespace SaasTemplate.Privacy

open SaasTemplate.Isolation SaasTemplate.Isolation.Prog

variable {τ : Type} [DecidableEq τ] {t : τ} {db : Db τ} {C : Concerns τ} {settings : ExportSettings}

/-! ## Programs -/

/-- `t` holds nothing yet. -/
structure Opened (t : τ) (db : Db τ) : Prop where
  requests : Table.HoldsNone t db.requests
  artifacts : Table.HoldsNone t db.artifacts
  erased : Table.HoldsNone t db.erased

theorem Opened.rested (h : Opened t db) : Rested t db :=
  ⟨fun k _ held _ => absurd held (h.requests k), fun k works => h.erased k works⟩

theorem Opened.alone (h : Opened t db) (id : Uuid) : Alone t id db :=
  ⟨h.requests.only id, h.artifacts, h.erased, h.rested.clean⟩

theorem Opened.unreported (h : Opened t db) : Unreported t db := ⟨h.rested.idle, h.artifacts⟩

theorem RequestOp.work_spec (op : RequestOp) :
    Spec C t (Opened t) op.work fun _ => Committable t := by
  have dropped : ∀ {α : Type} {A : Db τ → Prop} {p : Tx α}, (∀ db, Opened t db → A db) →
      Spec C t A p (fun _ => Committable t) →
      Spec C t (Opened t) (p >>= fun _ => pure ()) fun _ => Committable t :=
    fun start run => (run.weaken start fun _ _ held => held).bind fun _ => .pure fun _ held => held
  have rested : ∀ db, Opened t db → Rested t db := fun _ held => held.rested
  cases op with
  | submit call =>
      refine dropped (fun db held => held.rested.idle) ?_
      exact (submitRequest_spec call).weaken (fun _ held => held) fun _ _ held => held.committable
  | markUnderReview id reviewer => exact dropped rested (transitionStatus_spec _ _ _)
  | approve id reviewer reasonCode => exact dropped rested (transitionStatus_spec _ _ _)
  | reject id reviewer reasonCode => exact dropped rested (transitionStatus_spec _ _ _)
  | cancelOwn id requester => exact dropped rested (cancelOwnRequest_spec requester)
  | cancelPlatform id reviewer => exact dropped rested (transitionStatus_spec _ _ _)
  | verifyRepresentative id reviewer =>
      exact dropped rested (reviewed_spec fun now => .verify now reviewer)
  | rejectRepresentative id reasonCode =>
      exact dropped rested (rejectRepresentativeAuthority_spec reasonCode)
  | fulfil id reviewer => exact dropped rested (fulfilRequest_spec reviewer)
  | executeErasure call =>
      exact dropped (fun db held => held.alone call.requestId)
        (executeApprovedErasureRequest_spec call)

/-- The token with which an operation reports the end of a generation. -/
def ArtifactOp.reportToken : ArtifactOp → Option String
  | .markReady _ token | .markFailed _ token _ => some token
  | _ => none

theorem ArtifactOp.work_spec (op : ArtifactOp) (mine : C.token t = op.reportToken) :
    Spec C t (Opened t) (op.work settings) fun result db => Committable t db ∧
      ∀ id token, op = .renew id token → RenewalReady C t id token result db := by
  have dropped : ∀ {α : Type} {A : Db τ → Prop} {p : Tx α}, (∀ db, Opened t db → A db) →
      (∀ id token, op ≠ .renew id token) → Spec C t A p (fun _ => Idle t) →
      Spec C t (Opened t) (p >>= fun _ => pure none) fun result db => Committable t db ∧
        ∀ id token, op = .renew id token → RenewalReady C t id token result db := by
    intro α A p start other run
    refine (run.weaken start fun _ _ held => held).bind fun _ => .pure fun db held => ?_
    exact ⟨held.committable, fun id token is => absurd is (other id token)⟩
  have idle : ∀ db, Opened t db → Idle t db := fun _ held => held.rested.idle
  cases op with
  | request newId requestId requestedByUserId =>
      exact dropped idle nofun (requestExportArtifact_spec settings newId requestId requestedByUserId)
  | confirmDelivery id => exact dropped idle nofun (confirmExportDelivery_spec settings)
  | claim batchSize token =>
      exact dropped idle nofun (claimQueuedArtifactLeases_spec settings batchSize token)
  | recover limit => exact dropped idle nofun (recoverStaleProcessingArtifacts_spec limit)
  | renew id token =>
      refine (renewProcessingLease_spec token).weaken idle fun result db held => ?_
      exact ⟨held.1.committable, fun id' token' is => by cases is; exact held⟩
  | prepare id token candidateKey archive =>
      refine Triple.weaken (A := Idle t) (B := fun result db => Idle t db ∧ result = none) ?_ idle
        fun result db held => ⟨held.1.committable, nofun⟩
      exact (prepareExportArchive_spec settings token candidateKey archive).bind fun _ =>
        .pure fun db held => ⟨held, rfl⟩
  | resetIntent prepared token =>
      exact dropped idle nofun (resetPreparedExportUploadIntent_spec prepared token)
  | markReady prepared token =>
      exact dropped (fun _ held => held.unreported) nofun
        (markGeneratedExportArtifactReady_spec prepared mine)
  | markFailed id token text =>
      exact dropped (fun _ held => held.unreported) nofun (markExportArtifactFailed_spec text mine)
  | retention purges stage => exact dropped idle nofun (retentionStep_spec purges stage)

def PrivacyOp.reportToken : PrivacyOp → Option String
  | .artifact op => op.reportToken
  | .request _ => none

/-- What a renewal that returns `True` has committed. -/
def RenewalCommitted (C : Concerns τ) (op : PrivacyOp) (result : Except AppError (Option Renewal))
    (db : Db τ) : Prop :=
  ∀ id token renewal, op = .artifact (.renew id token) → result = .ok (some renewal) →
    renewal.writes = true → C.leases → ∃ a, db.artifacts.committed id = some a ∧
      a.isProcessingWith token = true ∧
      a.processingLeaseExpiresAt = some (renewal.now + processingLease)

theorem committable_needs {s : Statement} (is : s = .commit) (h : Committable t db) :
    Needs C t s db := by
  subst is
  exact fun k works => (h k works).2

theorem PrivacyOp.program_wp (op : PrivacyOp) (mine : C.token t = op.reportToken)
    (start : Opened t db) :
    wp (machine τ) (privacyContract C) t (op.program settings) (RenewalCommitted C op) db := by
  cases op with
  | request op =>
      have body : Spec C t (Opened t) (do
          op.work
          pure (none : Option Renewal)) fun _ => Committable t :=
        (op.work_spec).bind fun _ => .pure fun _ held => held
      exact Terms.wp_block body (fun _ => Mild.committable.stable)
        (fun _ _ held _ => committable_needs (C := C) rfl held)
        (fun _ _ _ _ _ _ _ => ⟨trivial, fun _ _ _ _ _ is => nomatch is⟩)
        (fun _ _ _ _ _ _ _ _ _ is => nomatch is) start
  | artifact op =>
      refine Terms.wp_block (op.work_spec mine) (fun result => ?_)
        (fun _ _ held _ => committable_needs (C := C) rfl held.1) ?_
        (fun _ _ _ _ _ _ _ _ _ _ is => nomatch is) start
      · intro db db' held moved holds
        exact ⟨(Mild.committable (C := C)).stable db db' held.1 moved holds,
          fun id token is => renewalReady_stable db db' (held.2 id token is) moved holds⟩
      · intro result db r db' held _ executed
        refine ⟨trivial, fun _ _ id token renewal is returned writes about => ?_⟩
        cases is
        cases returned
        cases executed
        obtain ⟨held, a, here, holds, lease⟩ := (held.2 id token rfl).2 renewal rfl writes about
        refine ⟨a, ?_, holds, lease⟩
        simp only [Db.commit, Table.committed_commit]
        rwa [Table.view_of_held held]

/-! ## Runs -/

/-- Operations that are about to run, on a committed database that keeps the laws. -/
structure PrivacyStart (settings : ExportSettings) (op : τ → PrivacyOp)
    (c : Config τ Statement Answer AppError (Db τ) (Option Renewal)) : Prop where
  requests : ∀ k, c.db.requests.holder k = none
  artifacts : ∀ k, c.db.artifacts.holder k = none
  erased : ∀ k, c.db.erased.holder k = none
  operations : ∀ t, c.run t = some ((op t).program settings)
  entitled : ∀ k r, c.db.requests.committed k = some r → r.IsEntitled
  executed : ∀ k, c.db.erased.committed k = some () ↔ ∃ r, c.db.requests.committed k = some r ∧
    r.requestType = .erase ∧ r.status = .fulfilled
  finished : ∀ k r, c.db.requests.committed k = some r → r.requestType = .erase →
    r.executionStatus = .ready → r.status = .fulfilled
  leased : ∀ k a, c.db.artifacts.committed k = some a → a.IsLeased

section Runs

variable {op : τ → PrivacyOp}
  {start c d : Config τ Statement Answer AppError (Db τ) (Option Renewal)}

theorem nothing_pending {ρ : Type} {T : Table Uuid τ ρ} (unlocked : ∀ k, T.holder k = none)
    {k : Uuid} {r : ρ} (here : T.pending k = some r) : False := by
  obtain ⟨u, held⟩ := Table.held_of_pending here
  cases (unlocked k).symm.trans held

theorem versions_of_unlocked {ρ : Type} {P : ρ → Prop} {T : Table Uuid τ ρ}
    (unlocked : ∀ k, T.holder k = none) (holds : ∀ k r, T.committed k = some r → P r) :
    T.Versions P :=
  ⟨holds, fun _ _ here => (nothing_pending unlocked here).elim⟩

theorem prepared_of_unlocked {ρ : Type} {rel : τ → ρ → ρ → Prop} {T : Table Uuid τ ρ}
    (unlocked : ∀ k, T.holder k = none) : T.Prepared rel :=
  fun k _ _ held => nomatch (unlocked k).symm.trans held

theorem PrivacyStart.inv (h : PrivacyStart settings op start) : Inv C start.db where
  requests := ⟨versions_of_unlocked h.requests h.entitled, prepared_of_unlocked h.requests⟩
  erased :=
    { done k here := (h.executed k).mp here
      executed k r here kind done := (h.executed k).mpr
        ⟨r, here, kind, done.elim (h.finished k r here kind) id⟩
      executes k _ _ held := nomatch (h.requests k).symm.trans held
      working k _ held := nomatch (h.erased k).symm.trans held }
  truth _ k _ _ held := nomatch (h.requests k).symm.trans held
  artifacts := ⟨fun _ => versions_of_unlocked h.artifacts h.leased,
    fun _ => prepared_of_unlocked h.artifacts, prepared_of_unlocked h.artifacts⟩

/-- The concerns of operations that report with their tokens. -/
def concernsOf (op : τ → PrivacyOp) (checks leases finality : Prop) : Concerns τ :=
  ⟨checks, leases, finality, fun t => (op t).reportToken⟩

variable {checks leases finality : Prop}

/-- Every reachable configuration is safe for what a result is about. -/
theorem PrivacyStart.safe (h : PrivacyStart settings op start)
    (run : (machine τ).Reaches (Allowed (concernsOf op checks leases finality)) start c) :
    Contract.Sound.Safe (machine τ) (privacyContract (concernsOf op checks leases finality))
      (fun t => RenewalCommitted (concernsOf op checks leases finality) (op t)) c := by
  refine (privacyTerms _).sound.invariant ⟨h.inv, fun t s k running => ?_⟩ run
  have program : (op t).program settings = .call s k :=
    Option.some.inj ((h.operations t).symm.trans running)
  rw [← program]
  refine (op t).program_wp rfl ⟨fun k held => ?_, fun k held => ?_, fun k held => ?_⟩
  · cases (h.requests k).symm.trans held
  · cases (h.artifacts k).symm.trans held
  · cases (h.erased k).symm.trans held

/-- A step commits nothing, or is the commit of one client. -/
theorem PrivacyStart.commits (h : PrivacyStart settings op start)
    (run : (machine τ).Reaches (Allowed (concernsOf op checks leases finality)) start c)
    (step : (machine τ).Step (Allowed (concernsOf op checks leases finality)) c d) :
    Unchanged c.db d.db ∨ ∃ t, c.waiting t = some .commit ∧ d.db = c.db.commit t := by
  have safe := h.safe run
  have needed : ∀ t s k, c.run t = some (.call s k) →
      Allowed (concernsOf op checks leases finality) t s c.db →
      (privacyDiscipline (concernsOf op checks leases finality)).needs t s c.db :=
    fun t s k running allowed => ⟨allowed, (privacyTerms _).sound.shown safe running⟩
  rcases (privacyDiscipline _).step_commits safe.1 needed step with
    same | ⟨t, k, r, running, executed, -⟩
  · exact .inl same
  · obtain ⟨-, is⟩ := Prod.mk.inj (Option.some.inj executed)
    exact .inr ⟨t, by simp [Config.waiting, running], is.symm⟩

/-- Along a run the committed rows move along their laws. -/
structure Later (C : Concerns τ) (db db' : Db τ) : Prop where
  requests : db.requests.Evolves requestLaw db'.requests
  artifacts : db.artifacts.Evolves (artifactLaw C) db'.artifacts

theorem PrivacyStart.later (h : PrivacyStart settings op start)
    (before : (machine τ).Reaches (Allowed (concernsOf op checks leases finality)) start c)
    (after : (machine τ).Reaches (Allowed (concernsOf op checks leases finality)) c d) :
    Later (concernsOf op checks leases finality) c.db d.db := by
  refine (privacyTerms _).sound.reaches_rel (fun _ => ⟨.refl _ _, .refl _ _⟩)
    (fun first second => ⟨first.requests.trans second.requests,
      first.artifacts.trans second.artifacts⟩)
    (fun promised => ⟨promised.1.requests.evolves, promised.1.artifacts.evolves⟩) ?_
    (h.safe before) after
  rintro db _ - ⟨clock, rfl⟩
  exact ⟨.refl _ _, .refl _ _⟩

end Runs

/-! ## The life of a request -/

/-- The concerns of the laws that hold in every run. -/
abbrev noConcerns (op : τ → PrivacyOp) : Concerns τ := concernsOf op False False False

theorem allowed_always {op : τ → PrivacyOp} (t : τ) (s : Statement) (db : Db τ) :
    Allowed (noConcerns op) t s db :=
  ⟨False.elim, False.elim, False.elim, False.elim⟩

/-- A status that no transition leaves. -/
def DataSubjectRequestStatus.isTerminal : DataSubjectRequestStatus → Bool
  | .rejected | .cancelled | .fulfilled => true
  | _ => false

theorem terminal_path {r next : DataSubjectRequest} (path : RequestPath r next)
    (terminal : r.status.isTerminal = true) : next.status = r.status := by
  refine path.final ?_
  cases status : r.status <;>
    simp_all [DataSubjectRequestStatus.isTerminal, DataSubjectRequestStatus.allowedTransitions]

section Requests

variable {op : τ → PrivacyOp}
  {start c d e : Config τ Statement Answer AppError (Db τ) (Option Renewal)}

theorem PrivacyStart.step (h : PrivacyStart settings op start) {checks leases finality : Prop}
    (run : (machine τ).Reaches (Allowed (concernsOf op checks leases finality)) start c)
    (moves : (machine τ).Step (Allowed (concernsOf op checks leases finality)) c d)
    {k : Uuid} {r : DataSubjectRequest} (here : c.db.requests.committed k = some r) :
    ∃ next, d.db.requests.committed k = some next ∧ RequestStep r next := by
  have safe := h.safe run
  rcases h.commits run moves with same | ⟨t, -, is⟩
  · exact ⟨r, by rw [same.requests, here], rfl, .inl rfl⟩
  · obtain ⟨next, seen, related⟩ := safe.1.requests.steps.view here t
    refine ⟨next, by rw [is]; simpa [Db.commit] using seen, ?_⟩
    rcases related with rfl | ⟨-, related⟩
    · exact ⟨rfl, .inl rfl⟩
    · exact related

/-- In every run each committed change of a status is an allowed transition, a terminal status
    stays, and an approved or fulfilled request is entitled to it. -/
theorem request_lifecycle (h : PrivacyStart settings op start)
    (run : (machine τ).Reaches (fun _ _ _ => True) start c) :
    (∀ k r, c.db.requests.committed k = some r →
      r.status = .approved ∨ r.status = .fulfilled →
        r.requestType.isApprovable = true ∧ r.representativeStatus.allowsApproval = true) ∧
    (∀ d, (machine τ).Step (fun _ _ _ => True) c d → ∀ k r,
      c.db.requests.committed k = some r → ∃ next, d.db.requests.committed k = some next ∧
        (next.status = r.status ∨ next.status ∈ r.status.allowedTransitions)) ∧
    ∀ d, (machine τ).Reaches (fun _ _ _ => True) c d → ∀ k r,
      c.db.requests.committed k = some r → r.status.isTerminal = true →
        ∃ next, d.db.requests.committed k = some next ∧ next.status = r.status := by
  have allowed : ∀ t s db, True → Allowed (noConcerns op) t s db :=
    fun t s db _ => allowed_always t s db
  have reached := run.mono allowed
  refine ⟨(h.safe reached).1.requests.entitled.committed, ?_, ?_⟩
  · intro d moves k r here
    obtain ⟨next, there, step⟩ := h.step reached (moves.mono allowed) here
    exact ⟨next, there, step.status⟩
  · intro d after k r here terminal
    obtain ⟨next, there, path⟩ := (h.later reached (after.mono allowed)).requests k r here
    exact ⟨next, there, terminal_path path terminal⟩

/-! ## Truthful fulfilment -/

/-- The export request that becomes fulfilled has a usable artifact, and no artifact is taken
    out of READY while its request is about to become fulfilled. -/
def FulfilsTruly (t : τ) (s : Statement) (db : Db τ) : Prop :=
  fulfilsTruly t s db = true ∧ sparesFulfilling t s db = true

instance (t : τ) (s : Statement) (db : Db τ) : Decidable (FulfilsTruly t s db) :=
  inferInstanceAs (Decidable (_ ∧ _))

/-- An export request that becomes fulfilled has a usable artifact at that commit, a fulfilled
    erasure has been executed, and a request that is cancelled or rejected is never erased. -/
def FulfilmentIsTruthful (permitted : τ → Statement → Db τ → Prop)
    (c : Config τ Statement Answer AppError (Db τ) (Option Renewal)) : Prop :=
  (∀ d, (machine τ).Step permitted c d → ∀ k r, d.db.requests.committed k = some r →
    r.requestType = .export → r.status = .fulfilled →
    (∀ before, c.db.requests.committed k = some before → before.status ≠ .fulfilled) →
    ∃ t now, c.waiting t = some .commit ∧ c.db.checked t = some (k, now) ∧
      ∃ id a, d.db.artifacts.committed id = some a ∧ a.dataSubjectRequestId = k ∧
        a.status = .ready ∧ now < a.expiresAt) ∧
  (∀ k r, c.db.requests.committed k = some r → r.requestType = .erase →
    r.status = .fulfilled → c.db.erased.committed k = some ()) ∧
  ∀ d, (machine τ).Reaches permitted c d → ∀ k r, c.db.requests.committed k = some r →
    r.status = .cancelled ∨ r.status = .rejected →
    c.db.erased.committed k ≠ some () ∧ d.db.erased.committed k ≠ some ()

/-- Fulfilment is truthful in every run in which no artifact is taken away from a request that
    becomes fulfilled. -/
theorem fulfilment_truthful (h : PrivacyStart settings op start)
    (run : (machine τ).Reaches FulfilsTruly start c) : FulfilmentIsTruthful FulfilsTruly c := by
  have allowed : ∀ t s db, FulfilsTruly t s db → Allowed (concernsOf op True False False) t s db :=
    fun t s db holds => ⟨fun _ => holds.1, fun _ => holds.2, False.elim, False.elim⟩
  have reached := run.mono allowed
  have inv := (h.safe reached).1
  refine ⟨?_, fun k r here kind done => inv.erased.executed k r here kind (.inr done), ?_⟩
  · intro d moves k r there kind done fresh
    rcases h.commits reached (moves.mono allowed) with same | ⟨t, commits, is⟩
    · rw [same.requests] at there
      exact absurd done (fresh r there)
    · have seen : c.db.requests.view t k = some r := by simpa [is, Db.commit] using there
      by_cases held : c.db.requests.holder k = some t
      · rw [Table.view_of_held held] at seen
        obtain ⟨now, checked, id, settled⟩ := inv.truth trivial k t r held seen kind done fresh
        have after := Table.settled_commit (t := t) settled
        simp only [Table.settled, Bool.and_eq_true, Option.any_eq_true] at after
        obtain ⟨⟨a, here, usable⟩, -⟩ := after
        obtain ⟨request, ready, live⟩ := usable_iff.mp usable
        exact ⟨t, now, commits, checked, id, a, by simpa [is, Db.commit] using here, request, ready,
          live⟩
      · rw [Table.view_of_not_held held] at seen
        exact absurd done (fresh r seen)
  · intro d after k r here ended
    have never : ∀ e, Inv (concernsOf op True False False) e → ∀ next,
        e.requests.committed k = some next → next.status = r.status →
        e.erased.committed k ≠ some () := by
      intro e holds next there status executed
      obtain ⟨row, again, -, fulfilled⟩ := holds.erased.done k executed
      cases there.symm.trans again
      rw [← status, fulfilled] at ended
      simp at ended
    have afterwards := after.mono allowed
    obtain ⟨next, there, path⟩ := (h.later reached afterwards).requests k r here
    have terminal : r.status.isTerminal = true := by
      rcases ended with is | is <;> rw [is] <;> rfl
    exact ⟨never c.db inv r here rfl,
      never d.db (h.safe (reached.trans afterwards)).1 next there (terminal_path path terminal)⟩

end Requests

/-! ## The schedules -/

/-- Request 1 is an approved export of user 100 for themselves. -/
def exampleRequest : DataSubjectRequest where
  requestType := .export
  status := .approved
  executionStatus := .ready
  requesterRole := .self
  representativeStatus := .notRequired
  representativeRelationship := none
  representativeAuthorityNote := none
  representativeVerifiedAt := none
  representativeVerifiedByUserId := none
  representativeRejectionReasonCode := none
  requesterUserId := some 100
  subjectUserId := some 100
  reviewerUserId := none
  submittedAt := 0
  reviewedAt := none
  decidedAt := none
  fulfilledAt := none
  cancelledAt := none
  executionStartedAt := none
  executionCompletedAt := none
  executionFailedAt := none
  executionFailureReasonCode := none
  executionFailureDetail := none
  decisionReasonCode := none
  rejectionReasonCode := none
  requesterNote := none
  internalNote := none
  dueAt := 0
  idempotencyKeyHash := none
  idempotencyFingerprint := none
  idempotencyKeyExpiresAt := none
  createdAt := 0

/-- An artifact of request 1 that expires at 10. -/
def exampleArtifact (status : ExportArtifactStatus) : ExportArtifact where
  dataSubjectRequestId := 1
  subjectUserId := some 100
  requesterUserId := some 100
  status := status
  storageBackend := .local
  storageKey := some "exports/10.zip"
  filename := some "export.zip"
  contentType := some "application/zip"
  sizeBytes := some 1
  checksumSha256 := some "digest"
  requestedByUserId := some 7
  generatedByUserId := none
  failureReasonCode := none
  failureDetail := none
  queuedAt := 0
  startedAt := none
  processingToken := none
  processingLeaseExpiresAt := none
  completedAt := none
  failedAt := none
  expiresAt := 10
  downloadedAt := none
  downloadCount := 0
  createdAt := 0

def exampleSettings : ExportSettings := ⟨true, .local, 10, 100⟩

/-- Request 1 with its ready artifact 10, at 9. -/
def exampleDb : Db Bool where
  requests := .ofRows [(1, exampleRequest)]
  artifacts := .ofRows [(10, exampleArtifact .ready)]
  erased := .ofRows []
  checked _ := none
  clock := 9

/-- The request is fulfilled while retention expires what is due at 10. -/
def exampleOp : Bool → PrivacyOp
  | false => .request (.fulfil 1 7)
  | true => .artifact (.retention [] (.expire 10 5))

def exampleStart : Config Bool Statement Answer AppError (Db Bool) (Option Renewal) :=
  ⟨exampleDb, fun t => some ((exampleOp t).program exampleSettings)⟩

theorem exampleStart_start : PrivacyStart exampleSettings exampleOp exampleStart where
  requests := Table.holder_ofRows _
  artifacts := Table.holder_ofRows _
  erased := Table.holder_ofRows _
  operations _ := rfl
  entitled k r here := by
    simp only [exampleStart, exampleDb, Table.committed_ofRows] at here
    have is := Table.lookup_mem here
    simp only [List.mem_singleton, Prod.mk.injEq] at is
    rw [is.2]
    exact fun _ => ⟨rfl, rfl⟩
  executed k := by
    refine ⟨fun erased => by simp [exampleStart, exampleDb] at erased, ?_⟩
    rintro ⟨r, here, kind, -⟩
    simp only [exampleStart, exampleDb, Table.committed_ofRows] at here
    have is := Table.lookup_mem here
    simp only [List.mem_singleton, Prod.mk.injEq] at is
    rw [is.2] at kind
    cases kind
  finished k r here kind := by
    simp only [exampleStart, exampleDb, Table.committed_ofRows] at here
    have is := Table.lookup_mem here
    simp only [List.mem_singleton, Prod.mk.injEq] at is
    rw [is.2] at kind
    cases kind
  leased k a here := by
    simp only [exampleStart, exampleDb, Table.committed_ofRows] at here
    have is := Table.lookup_mem here
    simp only [List.mem_singleton, Prod.mk.injEq] at is
    rw [is.2]
    exact fun some => absurd rfl some

/-- What shows of request 1 and of the artifacts. -/
def exampleView (c : Config Bool Statement Answer AppError (Db Bool) (Option Renewal)) :
    Option (DataSubjectRequestType × DataSubjectRequestStatus) × Bool :=
  ((c.db.requests.committed 1).map fun r => (r.requestType, r.status),
    c.db.artifacts.keys.any fun k => (c.db.artifacts.committed k).any (·.status == .ready))

theorem anything_checked (_ : Bool) (_ : Statement) (_ : Db Bool) (_ : true = true) : True :=
  trivial

/-- Nobody interferes: the request is fulfilled. -/
theorem request_lifecycle_example :
    ∃ c, (machine Bool).Reaches (fun _ _ _ => True) exampleStart c ∧
      exampleView c = (some (.export, .fulfilled), true) ∧
      ∀ d, (machine Bool).Reaches (fun _ _ _ => True) c d → ∀ k r,
        c.db.requests.committed k = some r → r.status.isTerminal = true →
          ∃ next, d.db.requests.committed k = some next ∧ next.status = r.status := by
  have played : ((machine Bool).play (fun _ _ _ => true) (List.replicate 9 false)
      exampleStart).map exampleView = some (some (.export, .fulfilled), true) := by decide
  obtain ⟨c, run, seen⟩ := Machine.run_of_play anything_checked played
  exact ⟨c, run, seen, (request_lifecycle exampleStart_start run).2.2⟩

theorem fulfilment_truthful_example :
    ∃ c, (machine Bool).Reaches FulfilsTruly exampleStart c ∧
      exampleView c = (some (.export, .fulfilled), true) ∧ FulfilmentIsTruthful FulfilsTruly c := by
  have played : ((machine Bool).play (fun t s db => decide (FulfilsTruly t s db))
      (List.replicate 9 false) exampleStart).map exampleView =
        some (some (.export, .fulfilled), true) := by decide
  obtain ⟨c, run, seen⟩ := Machine.run_of_play (fun _ _ _ passed => of_decide_eq_true passed) played
  exact ⟨c, run, seen, fulfilment_truthful exampleStart_start run⟩

/-- The artifact expires between the check of the request and its fulfilment. -/
theorem export_expires_before_fulfilment :
    ¬∀ (op : Bool → PrivacyOp) (start c : Config Bool Statement Answer AppError (Db Bool) (Option Renewal)),
      PrivacyStart exampleSettings op start → (machine Bool).Reaches (fun _ _ _ => True) start c →
      FulfilmentIsTruthful (fun _ _ _ => True) c := by
  intro claim
  let tick (db : Db Bool) : Db Bool := { db with clock := 10 }
  have first : ((((machine Bool).play (fun _ _ _ => true) (List.replicate 4 false)
      exampleStart).map fun d => ⟨tick d.db, d.run⟩).bind ((machine Bool).play (fun _ _ _ => true)
      (List.replicate 12 true ++ List.replicate 4 false))).map exampleView =
        some (some (.export, .approved), false) := by decide
  have whole : ((((machine Bool).play (fun _ _ _ => true) (List.replicate 4 false)
      exampleStart).map fun d => ⟨tick d.db, d.run⟩).bind ((machine Bool).play (fun _ _ _ => true)
      ((List.replicate 12 true ++ List.replicate 4 false) ++ [false]))).map exampleView =
        some (some (.export, .fulfilled), false) := by decide
  have ticks : ∀ db, (machine Bool).env db (tick db) := fun db => ⟨10, rfl⟩
  obtain ⟨c, d, run, step, before, after⟩ :=
    Machine.step_of_play_env anything_checked ticks first whole
  obtain ⟨requestBefore, -⟩ := Prod.mk.inj before
  obtain ⟨requestAfter, nothing⟩ := Prod.mk.inj after
  obtain ⟨r, there, kind⟩ := Option.map_eq_some_iff.mp requestAfter
  obtain ⟨type, status⟩ := Prod.mk.inj kind
  obtain ⟨t, now, -, -, id, a, here, -, ready, -⟩ :=
    (claim exampleOp exampleStart c exampleStart_start run).1 d step 1 r there type status
      fun row here => by simp_all
  have absent := List.any_eq_false.mp nothing id (Table.mem_keys_of_committed here)
  simp [here, ready] at absent

end SaasTemplate.Privacy
