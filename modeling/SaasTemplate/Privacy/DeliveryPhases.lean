import SaasTemplate.Isolation.Phases
import SaasTemplate.Privacy.Lifecycle
import SaasTemplate.Privacy.Writes

/-! # Confirming a delivery

The privacy database with its audit events, as far as they confirm deliveries. An operation
records all its events in one transaction. No event is recorded inside a savepoint.

A transaction that confirms goes through phases: it has written nothing, it has confirmed and
still owes the event, it has recorded the event. All others leave deliveries alone.
-/

set_option linter.unusedSectionVars false

namespace SaasTemplate.Privacy

open SaasTemplate.Isolation SaasTemplate.Isolation.Prog

/-! ## The database with its audit events -/

/-- An audit event: a confirmed delivery of an artifact, or anything else. -/
inductive AuditEntry where
  | deliveryConfirmed (artifact : Uuid)
  | other
  deriving DecidableEq

/-- The action and the target of the events that an operation records. -/
def PrivacyOp.auditEntry : PrivacyOp → AuditEntry
  | .artifact (.confirmDelivery id) => .deliveryConfirmed id
  | _ => .other

/-- The events in open transactions, and the committed ones. -/
structure AuditedDb (τ : Type) where
  privacy : Db τ
  recorded : τ → List AuditEntry
  log : List AuditEntry

section Exec

variable {τ : Type} [DecidableEq τ]

/-- What a statement of `t` does to the audit events, for `t` whose events are `entry`. -/
def AuditedDb.follow (entry : AuditEntry) (t : τ) (s : Statement) (privacy : Db τ)
    (db : AuditedDb τ) : AuditedDb τ :=
  match s with
  | .recordAuditEvent =>
      { db with privacy, recorded := Function.update db.recorded t (entry :: db.recorded t) }
  | .commit => ⟨privacy, Function.update db.recorded t [], db.recorded t ++ db.log⟩
  | .rollback => ⟨privacy, Function.update db.recorded t [], db.log⟩
  | _ => { db with privacy }

/-- The end of transaction `t` without a trace. -/
def AuditedDb.rollback (t : τ) (db : AuditedDb τ) : AuditedDb τ :=
  ⟨db.privacy.rollback t, Function.update db.recorded t [], db.log⟩

end Exec

/-- The privacy database with its audit events, for clients with given operations. -/
def auditedMachine {τ : Type} [DecidableEq τ] (op : τ → PrivacyOp) :
    Machine τ Statement Answer AppError (AuditedDb τ) where
  exec t s db := (exec t s db.privacy).map fun out =>
    (out.1, db.follow (op t).auditEntry t s out.2)
  fallible s := s ≠ .rollback
  crash t db := db.rollback t
  env db db' := ∃ clock, db' = { db with privacy := { db.privacy with clock } }

/-! ## Statements and deliveries -/

/-- When an artifact was delivered, with the count. -/
def deliveryOf : Option ExportArtifact → Nat × Option Time
  | none => (0, none)
  | some a => (a.downloadCount, a.downloadedAt)

/-- The statements of a transaction that leave deliveries alone. -/
def Statement.sparesDeliveries : Statement → Bool
  | .insertArtifact _ row => deliveryOf (some row) == (0, none)
  | .flushArtifact _ _ loaded assigned => deliveryOf (some assigned) == deliveryOf (some loaded)
  | .confirmDelivery _ _ | .savepoint | .rollbackTo _ | .commit | .rollback => false
  | _ => true

/-- The reading statements of a confirmation. -/
def Statement.isLookup : Statement → Bool
  | .now | .requestById _ | .artifactById _ | .artifactsOfRequest _ => true
  | _ => false

section Effects

variable {τ : Type} [DecidableEq τ] {t u : τ} {s : Statement} {db db' : Db τ}

theorem Case.respects (h : Case t s db db') :
    db.requests.Respects t db'.requests ∧ db.artifacts.Respects t db'.artifacts := by
  cases h with
  | quiet | markErased | noteCheck => exact ⟨.refl t _, .refl t _⟩
  | insertRequest _ _ _ _ free | lockRequest _ _ _ _ free | flushRequest _ _ _ _ _ _ free =>
      exact ⟨Table.respects_put free, .refl t _⟩
  | transition _ _ _ _ _ _ _ _ free | review _ _ _ _ _ _ _ _ free =>
      exact ⟨Table.respects_put free, .refl t _⟩
  | insertArtifact _ _ _ _ free | touchArtifact _ _ _ _ _ _ free
  | flushArtifact _ _ _ _ _ _ _ _ free => exact ⟨.refl t _, Table.respects_put free⟩
  | restore saved => exact ⟨Table.respects_restore t _ _, Table.respects_restore t _ _⟩
  | commit => exact ⟨Table.respects_commit t _, Table.respects_commit t _⟩
  | rollback => exact ⟨Table.respects_rollback t _, Table.respects_rollback t _⟩

/-- Only a commit changes what is committed. -/
theorem Case.committed (h : Case t s db db') (open_ : s ≠ .commit) (k : Uuid) :
    db'.artifacts.committed k = db.artifacts.committed k := by
  cases h with
  | commit is => exact absurd is open_
  | _ => simp [Db.restore, Db.rollback]

theorem exec_lookup {r : Except AppError (Answer s)} (lookup : s.isLookup = true)
    (h : exec t s db = some (r, db')) : db' = db := by
  cases s <;> simp_all [Statement.isLookup, exec, read]

theorem exec_flushRequest {id : Uuid} {loaded assigned : DataSubjectRequest}
    {r : Except AppError Unit} (h : exec t (.flushRequest id loaded assigned) db = some (r, db')) :
    db'.artifacts = db.artifacts := by
  simp only [exec] at h
  split at h
  · cases h
    rfl
  · obtain ⟨r', h⟩ := flushed_eq h
    rcases updateRequest_cases h with rfl | ⟨row, next, -, -, -, rfl⟩ <;> rfl

/-- The effect of a statement that spares deliveries. -/
inductive Spared (t : τ) (A : Table Uuid τ ExportArtifact) : Table Uuid τ ExportArtifact → Prop
  | same : Spared t A A
  | put (id : Uuid) (next : ExportArtifact) : A.free t id = true →
      deliveryOf (some next) = deliveryOf (A.view t id) → Spared t A (A.put t id (some next))

theorem Spared.of_update {id : Uuid} {change : ExportArtifact → Option ExportArtifact}
    {r : Except AppError (Option ExportArtifact)}
    (spares : ∀ row next, change row = some next → deliveryOf (some next) = deliveryOf (some row))
    (h : updateArtifact t id change db = some (r, db')) :
    Spared t db.artifacts db'.artifacts := by
  rcases updateArtifact_cases h with rfl | ⟨row, next, seen, changed, free, rfl⟩
  · exact .same
  · exact .put id next free (seen ▸ spares row next changed)

theorem Spared.of_lock {id : Uuid} {p : ExportArtifact → Bool}
    {r : Except AppError (Option ExportArtifact)} (h : lockArtifact t id p db = some (r, db')) :
    Spared t db.artifacts db'.artifacts := by
  rcases lockArtifact_cases h with ⟨rfl, -⟩ | ⟨row, seen, -, free, -, rfl⟩
  · exact .same
  · exact .put id row free (seen ▸ rfl)

theorem Spared.of_lockOrSkip {id : Uuid} {p : ExportArtifact → Bool}
    {r : Except AppError (Option ExportArtifact)}
    (h : lockArtifactOrSkip t id p db = some (r, db')) : Spared t db.artifacts db'.artifacts := by
  rcases lockArtifactOrSkip_cases h with ⟨rfl, -⟩ | ⟨row, seen, -, free, -, rfl⟩
  · exact .same
  · exact .put id row free (seen ▸ rfl)

theorem spared_of_updateRequest {id : Uuid}
    {change : DataSubjectRequest → Option DataSubjectRequest}
    {r : Except AppError (Option DataSubjectRequest)}
    (h : updateRequest t id change db = some (r, db')) : Spared t db.artifacts db'.artifacts := by
  rcases updateRequest_cases h with rfl | ⟨row, next, -, -, -, rfl⟩ <;> exact .same

theorem spared_of_lockRequest {id : Uuid} {p : DataSubjectRequest → Bool}
    {r : Except AppError (Option DataSubjectRequest)}
    (h : lockRequest t id p db = some (r, db')) : Spared t db.artifacts db'.artifacts := by
  rcases lockRequest_cases h with ⟨rfl, -⟩ | ⟨row, -, -, -, -, rfl⟩ <;> exact .same

/-- A flush writes the columns of a delivery only if the object has others than were loaded. -/
theorem deliveryOf_flush {loaded assigned : ExportArtifact} (current : ExportArtifact)
    (same : deliveryOf (some assigned) = deliveryOf (some loaded)) :
    deliveryOf (some (loaded.flush assigned current)) = deliveryOf (some current) := by
  obtain ⟨count, time⟩ := Prod.mk.inj same
  simp [deliveryOf, ExportArtifact.flush, Outbox.written, count, time]

theorem exec_spares {r : Except AppError (Answer s)} (spares : s.sparesDeliveries = true)
    (h : exec t s db = some (r, db')) : Spared t db.artifacts db'.artifacts := by
  cases s with
  | confirmDelivery | savepoint | rollbackTo | commit | rollback => cases spares
  | insertRequest id request =>
      obtain ⟨⟨out, T⟩, -, is⟩ := Option.map_eq_some_iff.mp h
      cases is
      exact .same
  | lockRequest id => exact spared_of_lockRequest h
  | lockRequestMentioning id subject => exact spared_of_lockRequest h
  | transitionStatusIfCurrent id expected values => exact spared_of_updateRequest h
  | updateRepresentativeIfCurrent id expected expectedRepresentative values =>
      exact spared_of_updateRequest h
  | flushRequest id loaded assigned => exact exec_flushRequest h ▸ .same
  | insertArtifact id artifact =>
      simp only [exec] at h
      split at h
      · obtain ⟨⟨out, T⟩, inserted, is⟩ := Option.map_eq_some_iff.mp h
        cases is
        rcases Table.insert_cases inserted with ⟨rfl, -⟩ | ⟨fresh, ok, rfl, -⟩
        · exact .same
        · refine .put id artifact ok.free ?_
          rw [fresh]
          exact beq_iff_eq.mp spares
      · cases h
        exact .same
  | lockQueuedArtifact id => exact .of_lockOrSkip h
  | lockStaleArtifact id now => exact .of_lockOrSkip h
  | lockProcessingArtifact id token => exact .of_lock h
  | lockPurgeRetry id status => exact .of_lock h
  | lockPurgeTarget id status backend key => exact .of_lock h
  | lockArtifactMentioning id subject => exact .of_lock h
  | ensureUploadIntent id token candidateKey metadata now =>
      obtain ⟨⟨r', db''⟩, is, same⟩ := Option.map_eq_some_iff.mp h
      cases same
      refine .of_update (fun row next changed => ?_) is
      obtain ⟨-, rfl⟩ := updateIf_eq changed
      rfl
  | resetUploadIntent id token backend key now =>
      obtain ⟨r', is⟩ := updated_eq h
      refine .of_update (fun row next changed => ?_) is
      obtain ⟨-, rfl⟩ := updateIf_eq changed
      rfl
  | flushArtifact writer id loaded assigned =>
      simp only [exec] at h
      split at h
      · cases h
        exact .same
      · obtain ⟨r', h⟩ := flushed_eq h
        refine .of_update (fun row next changed => ?_) h
        cases changed
        exact deliveryOf_flush row (beq_iff_eq.mp spares)
  | markErased request =>
      simp only [exec] at h
      split at h
      · cases h
        exact .same
      · cases h
  | _ =>
      cases h
      exact .same

/-- What the confirming `UPDATE` asks of an artifact and its request. -/
structure Deliverable (deliveredAt : Time) (a : ExportArtifact) (r : DataSubjectRequest) :
    Prop where
  ready : a.status = .ready
  unexpired : deliveredAt < a.expiresAt
  stored : a.storageKey.isSome = true
  undelivered : a.downloadCount = 0 ∧ a.downloadedAt = none
  eligible : r.requestType = .export ∧ (r.status = .approved ∨ r.status = .fulfilled)
  participants : r.subjectUserId.isSome = true ∧ r.requesterUserId.isSome = true

theorem exec_confirmDelivery {id : Uuid} {deliveredAt : Time} {r : Except AppError Bool}
    (h : exec t (.confirmDelivery id deliveredAt) db = some (r, db')) :
    (db' = db ∧ r ≠ .ok true) ∨ r = .ok true ∧ ∃ a request, db.artifacts.view t id = some a ∧
      db.requests.view t a.dataSubjectRequestId = some request ∧
      Deliverable deliveredAt a request ∧ db.artifacts.free t id = true ∧
      db' = { db with artifacts := (db.artifacts.put t id
        (some { a with downloadCount := 1, downloadedAt := some deliveredAt })) } := by
  obtain ⟨⟨out, db''⟩, updates, is⟩ := Option.map_eq_some_iff.mp h
  cases is
  obtain ⟨⟨found, T⟩, written, is⟩ := Option.map_eq_some_iff.mp updates
  cases is
  rcases Table.update_cases written with
    ⟨rfl, rfl | ⟨rfl, -⟩⟩ | ⟨a, next, seen, changed, ok, rfl, rfl⟩
  · exact .inl ⟨rfl, nofun⟩
  · exact .inl ⟨rfl, nofun⟩
  · obtain ⟨holds, rfl⟩ := updateIf_eq changed
    simp only [Bool.and_eq_true, Option.isNone_iff_eq_none, beq_iff_eq, decide_eq_true_eq,
      Option.any_eq_true] at holds
    obtain ⟨⟨⟨⟨⟨time, count⟩, ready⟩, unexpired⟩, stored⟩, request, here, eligible⟩ := holds
    simp only [DataSubjectRequest.isDeliverable, Bool.and_eq_true, beq_iff_eq,
      Bool.or_eq_true] at eligible
    obtain ⟨⟨⟨kind, status⟩, subject⟩, requester⟩ := eligible
    exact .inr ⟨rfl, a, request, seen, here, ⟨ready, unexpired, stored, ⟨count, time⟩,
      ⟨kind, status⟩, ⟨subject, requester⟩⟩, ok.free, rfl⟩

end Effects

theorem Statement.Ordinary.spares {s : Statement} (h : s.Ordinary) : s.sparesDeliveries = true := by
  cases s with
  | insertArtifact id artifact =>
      obtain ⟨settings, requestId, requestedBy, request, queuedAt, createdAt, rfl⟩ := h
      rfl
  | flushArtifact writer id loaded assigned =>
      refine beq_iff_eq.mpr ?_
      cases writer with
      | claimQueuedBatch =>
          obtain ⟨now, token, lease, rfl⟩ := h
          rfl
      | renewProcessingLease =>
          obtain ⟨lease, rfl⟩ := h
          rfl
      | markReady =>
          obtain ⟨metadata, now, rfl⟩ := h
          rfl
      | markFailed =>
          obtain ⟨code, detail, now, rfl⟩ := h
          rfl
      | eraseSubject =>
          obtain ⟨subject, rfl⟩ := h
          rfl
      | recoverStaleProcessing | markExpired =>
          cases h
          rfl
      | clearStorage =>
          obtain ⟨-, rfl⟩ := h
          rfl
  | confirmDelivery | savepoint | rollbackTo | commit | rollback => exact h.elim
  | _ => rfl

/-! ## The phases of a transaction -/

/-- `working` and `saved` are the phases of operations that do not confirm. In `fresh` the
    confirming operation may have read the clock. -/
inductive DeliveryPhase where
  | working
  | saved (saved : Saved)
  | fresh (now : Option Time)
  | confirmed (now : Time)
  | recorded (now : Time)
  deriving DecidableEq

namespace DeliveryPhase

/-- The phase in which a transaction begins. -/
def initial : AuditEntry → DeliveryPhase
  | .deliveryConfirmed _ => .fresh none
  | .other => .working

/-- The phases of operations that do not confirm. -/
def works : DeliveryPhase → Bool
  | .working | .saved _ => true
  | _ => false

/-- The event of a confirmed delivery is still to be recorded. -/
def owes : DeliveryPhase → Bool
  | .confirmed _ => true
  | _ => false

/-- The statements that do not leave the phase. -/
def allows (s : Statement) : DeliveryPhase → Bool
  | .working | .saved _ => s.sparesDeliveries
  | .fresh _ => s.isLookup
  | .confirmed _ => s.isLookup || match s with
      | .flushRequest _ _ _ | .recordAuditEvent => true
      | _ => false
  | .recorded _ => false

/-- The phase after an answer, for an operation whose events are `entry`. -/
def next (entry : AuditEntry) (φ : DeliveryPhase) (s : Statement)
    (r : Except AppError (Answer s)) : Option DeliveryPhase :=
  match s, r with
  | .rollback, _ => some (.initial entry)
  | .commit, .error _ => some φ
  | .commit, .ok _ => if φ.owes then none else some (.initial entry)
  | .savepoint, .error _ => if φ.works then some φ else none
  | .savepoint, .ok own => if φ.works then some (.saved own) else none
  | .rollbackTo own, _ => if φ = .saved own then some φ else none
  | .now, .ok clock => match φ with
      | .fresh _ => some (.fresh (some clock))
      | .recorded _ => none
      | _ => some φ
  | .confirmDelivery id now, r =>
      if entry = .deliveryConfirmed id ∧ φ = .fresh (some now) then
        some (match r with
          | .ok true => .confirmed now
          | _ => φ)
      else none
  | .recordAuditEvent, .ok _ => match φ with
      | .working | .saved _ => some φ
      | .confirmed now => some (.recorded now)
      | _ => none
  | s, _ => if φ.allows s then some φ else none

end DeliveryPhase

section Programs

variable {settings : ExportSettings}

/-- A program that ends well owes nothing. -/
def Paid {α : Type} (r : Except AppError α) (φ : DeliveryPhase) : Prop :=
  ∀ a, r = .ok a → φ.owes = false

/-- The automaton of an operation. -/
abbrev PrivacyOp.phases (op : PrivacyOp) : Automaton DeliveryPhase Statement Answer AppError :=
  DeliveryPhase.next op.auditEntry

theorem next_of_spares {entry : AuditEntry} {φ : DeliveryPhase} {s : Statement}
    (works : φ.works = true) (h : s.sparesDeliveries = true) (r : Except AppError (Answer s)) :
    DeliveryPhase.next entry φ s r = some φ := by
  have allowed : φ.allows s = true := by
    cases φ <;> first | exact h | cases works
  cases s with
  | confirmDelivery | savepoint | rollbackTo | commit | rollback => cases h
  | now | recordAuditEvent => cases φ <;> first | (cases r <;> rfl) | cases works
  | _ => cases r <;> exact if_pos allowed

theorem next_of_syncs {entry : AuditEntry} {now : Time} {s : Statement} (h : s.Syncs)
    (r : Except AppError (Answer s)) :
    DeliveryPhase.next entry (.confirmed now) s r = some (.confirmed now) := by
  cases s <;> first | exact h.elim | (cases r <;> rfl)

/-- The program stays among the phases of operations that do not confirm. -/
abbrev Works {α : Type} (entry : AuditEntry) (φ : DeliveryPhase) (p : Tx α) : Prop :=
  p.Follows (DeliveryPhase.next entry) (fun _ ψ => ψ.works = true) φ

theorem works_ordinary {α : Type} {entry : AuditEntry} {p : Tx α} {φ : DeliveryPhase}
    (works : φ.works = true) (h : Ordinary p) : Works entry φ p :=
  (h.follows fun _ ordinary r => next_of_spares works ordinary.spares r).mono
    fun _ _ is => is ▸ works

theorem works_bind {α β : Type} {entry : AuditEntry} {p : Tx α} {f : α → Tx β} {φ : DeliveryPhase}
    (h : Works entry φ p) (further : ∀ a ψ, ψ.works = true → Works entry ψ (f a)) :
    Works entry φ (p >>= f) :=
  h.bind further fun _ _ works => works

theorem follows_transaction {α : Type} {entry : AuditEntry} {body : Tx α} {φ : DeliveryPhase}
    (h : body.Follows (DeliveryPhase.next entry) Paid φ) :
    (inTransaction body).Follows (DeliveryPhase.next entry) (fun _ _ => True) φ := by
  refine h.transaction (fun a ψ paid r => ?_) fun ψ r => ?_
  · cases r with
    | error e => exact ⟨ψ, rfl⟩
    | ok x => exact ⟨.initial entry, by simp [DeliveryPhase.next, paid a rfl]⟩
  · exact ⟨.initial entry, by cases r <;> rfl⟩

theorem paid_bind {α β : Type} {entry : AuditEntry} {p : Tx α} {f : α → Tx β}
    {φ φ' : DeliveryPhase} (h : p.Follows (DeliveryPhase.next entry) (fun _ ψ => ψ = φ') φ)
    (further : ∀ a, (f a).Follows (DeliveryPhase.next entry) Paid φ') :
    (p >>= f).Follows (DeliveryPhase.next entry) Paid φ :=
  h.bind (fun a _ is => is ▸ further a) fun _ _ _ => nofun

/-- What the confirmation does after its `UPDATE` has found the row. -/
theorem follows_confirmed {entry : AuditEntry} {id : Uuid} {delivered : ExportArtifact}
    {state : ExecutionState} {now : Time} :
    Follows (DeliveryPhase.next entry) Paid (do
      syncExecutionState id delivered state none []
      sql .recordAuditEvent : Tx Unit) (.confirmed now) := by
  refine paid_bind ((syncs_syncExecutionState id delivered state none []).follows
    fun _ syncs => next_of_syncs syncs) fun _ => follows_stmt fun r => ?_
  cases r with
  | ok x => exact ⟨.recorded now, rfl, fun _ _ => rfl⟩
  | error e => exact ⟨.confirmed now, rfl, nofun⟩

theorem follows_ensureStillEligible {entry : AuditEntry} (artifact : ExportArtifact)
    (now : Option Time) :
    (ensureStillEligible artifact).Follows (DeliveryPhase.next entry)
      (fun _ ψ => ψ = .fresh now) (.fresh now) := by
  refine Follows.bind (Q := fun _ ψ => ψ = .fresh now)
    (follows_stmt fun r => ⟨.fresh now, by cases r <;> rfl, rfl⟩) ?_ fun _ _ is => is
  rintro request ψ rfl
  exact follows_raiseIf rfl rfl

theorem follows_confirmExportDelivery (id : Uuid) :
    (confirmExportDelivery settings id).Follows
      (DeliveryPhase.next (.deliveryConfirmed id)) Paid (.fresh none) := by
  refine paid_bind (follows_stmt fun r => ⟨.fresh none, by cases r <;> rfl, rfl⟩) fun found => ?_
  refine paid_bind (follows_orRaise (fun _ => rfl) rfl) fun artifact => ?_
  refine paid_bind (follows_raiseIf rfl rfl) fun _ => ?_
  refine Follows.bind (Q := fun r ψ => ∀ now, r = .ok now → ψ = .fresh (some now))
    (follows_stmt fun r => ?_) (fun now ψ read => ?_) fun _ _ _ => nofun
  · cases r with
    | ok now => exact ⟨.fresh (some now), rfl, fun _ is => by cases is; rfl⟩
    | error e => exact ⟨.fresh none, rfl, nofun⟩
  cases read now rfl
  refine paid_bind (follows_raiseIf rfl rfl) fun _ => ?_
  refine paid_bind (follows_ensureStillEligible artifact (some now)) fun _ => ?_
  refine paid_bind (follows_raiseIf rfl rfl) fun _ => ?_
  refine paid_bind (follows_raiseIf rfl rfl) fun _ => ?_
  refine Follows.bind (Q := fun r ψ => ∀ newly, r = .ok newly →
    ψ = if newly = true then .confirmed now else .fresh (some now))
    (follows_stmt fun r => ?_) (fun newly ψ after => ?_) fun _ _ _ => nofun
  · rcases r with e | newly
    · exact ⟨.fresh (some now), if_pos ⟨rfl, rfl⟩, nofun⟩
    · cases newly with
      | true => exact ⟨.confirmed now, if_pos ⟨rfl, rfl⟩, fun _ is => by cases is; rfl⟩
      | false => exact ⟨.fresh (some now), if_pos ⟨rfl, rfl⟩, fun _ is => by cases is; rfl⟩
  cases newly with
  | true =>
      cases after true rfl
      refine paid_bind (follows_stmt fun r => ⟨.confirmed now, by cases r <;> rfl, rfl⟩) fun _ => ?_
      exact follows_confirmed
  | false =>
      cases after false rfl
      refine paid_bind (follows_stmt fun r => ⟨.fresh (some now), by cases r <;> rfl, rfl⟩)
        fun _ => ?_
      exact follows_raiseIf (fun _ _ => rfl) nofun

theorem works_runProviders {entry : AuditEntry} {φ : DeliveryPhase} (works : φ.works = true)
    (id subject : Uuid) : Works entry φ (runProviders id subject) := by
  refine Follows.bind (Q := fun r ψ => ψ.works = true ∧ ∀ own, r = .ok own → ψ = .saved own)
    (follows_stmt fun r => ?_) ?_ fun e ψ is => is.1
  · cases r with
    | ok own => exact ⟨.saved own, if_pos works, rfl, fun _ is => by cases is; rfl⟩
    | error e => exact ⟨φ, if_pos works, works, nofun⟩
  · intro own ψ after
    cases after.2 own rfl
    have providers := (ordinary_providers id subject).follows (φ := .saved own)
      (δ := DeliveryPhase.next entry) fun _ ordinary r => next_of_spares rfl ordinary.spares r
    refine providers.attempt.bind ?_ fun e ψ ⟨_, is, _⟩ => nomatch is
    rintro ended ψ ⟨_, -, rfl⟩
    cases ended with
    | ok x => exact follows_pure rfl
    | error e =>
        exact works_bind (follows_stmt fun r => ⟨.saved own, if_pos rfl, rfl⟩) fun _ ψ works =>
          follows_pure works

theorem works_executeCoreErasure {entry : AuditEntry} {φ : DeliveryPhase}
    (works : φ.works = true) (call : EraseCall) (now : Time) :
    Works entry φ (executeCoreErasure call now) := by
  refine works_bind (works_ordinary works (ordinary_lockAndValidateRequest call.requestId)) ?_
  intro request φ works
  split
  · exact follows_pure works
  · exact follows_raise works
  · rename_i subject _ _
    refine works_bind (works_ordinary works (ordinary_sql trivial)) fun _ φ works => ?_
    refine works_bind (works_runProviders works call.requestId subject) fun ended φ works => ?_
    cases ended with
    | ok x =>
        exact works_bind (works_ordinary works (ordinary_sql trivial)) fun _ _ works =>
          follows_pure works
    | error e =>
        exact works_bind (works_ordinary works (ordinary_sql trivial)) fun _ _ works =>
          follows_pure works

theorem works_executeApprovedErasureRequest {entry : AuditEntry} {φ : DeliveryPhase}
    (works : φ.works = true) (call : EraseCall) :
    Works entry φ (executeApprovedErasureRequest call) := by
  refine works_bind (works_ordinary works (ordinary_sql trivial)) fun now φ works => ?_
  refine works_bind (works_ordinary works (ordinary_sql trivial)) fun _ φ works => ?_
  split
  · exact follows_raise works
  · refine works_bind (works_ordinary works (ordinary_sql trivial)) fun found φ works => ?_
    refine works_bind (works_ordinary works only_orRaise) fun locked φ works => ?_
    refine works_bind (works_ordinary works only_raiseIf) fun _ φ works => ?_
    refine works_bind (works_executeCoreErasure works call now) fun request φ works => ?_
    refine works_bind (works_ordinary works (ordinary_sql trivial)) fun _ φ works => ?_
    refine works_bind (works_ordinary works (ordinary_getRequest _)) fun _ φ works => ?_
    split
    · refine works_ordinary works (only_bind (ordinary_sql trivial) fun now => ?_)
      exact only_bind (ordinary_getRequest _) fun _ => ordinary_transitionLoaded _ _ _ _ _ _ _
    · exact follows_pure works

theorem PrivacyOp.program_follows (op : PrivacyOp) :
    (op.program settings).Follows (DeliveryPhase.next op.auditEntry) (fun _ _ => True)
      (.initial op.auditEntry) := by
  have paid : ∀ {α : Type} {p : Tx α}, Works .other .working p →
      (inTransaction p).Follows (DeliveryPhase.next .other) (fun _ _ => True) .working := by
    refine fun h => follows_transaction (h.mono fun r ψ works a is => ?_)
    cases ψ <;> first | rfl | cases works
  cases op with
  | request op =>
      by_cases erases : ∃ call, op = .executeErasure call
      · obtain ⟨call, rfl⟩ := erases
        refine paid (works_bind (works_bind ?_ fun _ _ works => follows_pure works)
          fun _ _ works => follows_pure works)
        exact works_executeApprovedErasureRequest rfl call
      · exact paid (works_bind (works_ordinary rfl (op.work_ordinary fun call is =>
          erases ⟨call, is⟩)) fun _ _ works => follows_pure works)
  | artifact op =>
      by_cases confirms : ∃ id, op = .confirmDelivery id
      · obtain ⟨id, rfl⟩ := confirms
        refine follows_transaction ((follows_confirmExportDelivery id).bind ?_ fun _ _ _ => nofun)
        exact fun _ ψ h => follows_pure fun _ _ => h _ rfl
      · have entry : (PrivacyOp.artifact op).auditEntry = .other := by
          cases op <;> first | rfl | exact absurd ⟨_, rfl⟩ confirms
        rw [entry]
        exact paid (works_ordinary rfl (op.work_ordinary settings fun id is => confirms ⟨id, is⟩))

end Programs

end SaasTemplate.Privacy
