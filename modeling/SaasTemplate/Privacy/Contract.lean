import SaasTemplate.Isolation.RowVersions
import SaasTemplate.Privacy.ArtifactServices

/-! # What the privacy services keep

The laws of requests hold whatever the schedule. The truth of a fulfilled export, the leases
and the finality of artifacts hold as long as no flush lands on a row that has moved on;
which of these a result is about is its `Concerns`.
-/

set_option linter.unusedSectionVars false

namespace SaasTemplate.Privacy

open SaasTemplate.Isolation

open SaasTemplate.Outbox (written written_same written_of_ne written_self)

variable {τ : Type} [DecidableEq τ]

/-! ## Requests -/

/-- An approved or fulfilled request is of a kind that may be, for an authorised requester. -/
def DataSubjectRequest.IsEntitled (r : DataSubjectRequest) : Prop :=
  r.status = .approved ∨ r.status = .fulfilled →
    r.requestType.isApprovable = true ∧ r.representativeStatus.allowsApproval = true

/-- What may become of a request in one transaction. -/
structure RequestStep (r next : DataSubjectRequest) : Prop where
  type : next.requestType = r.requestType
  status : next.status = r.status ∨ next.status ∈ r.status.allowedTransitions

/-- What may become of a request at all. -/
structure RequestPath (r next : DataSubjectRequest) : Prop where
  type : next.requestType = r.requestType
  final : r.status.allowedTransitions = [] → next.status = r.status

theorem RequestStep.path {r next : DataSubjectRequest} (h : RequestStep r next) :
    RequestPath r next :=
  ⟨h.type, fun final => h.status.resolve_right (by simp [final])⟩

theorem RequestPath.trans {a b c : DataSubjectRequest} (first : RequestPath a b)
    (second : RequestPath b c) : RequestPath a c where
  type := second.type.trans first.type
  final is := by
    have same := first.final is
    rw [second.final (same ▸ is), same]

def requestLaw : RowLaw Uuid DataSubjectRequest :=
  .persistent (fun _ => RequestPath) (fun _ _ => ⟨rfl, fun _ => rfl⟩)
    fun _ _ _ _ first second => first.trans second

structure RequestRows (R : Table Uuid τ DataSubjectRequest) : Prop where
  entitled : R.Versions DataSubjectRequest.IsEntitled
  steps : R.Prepared fun _ => RequestStep

/-! ## Erasures -/

/-- The providers ran once for every executed erasure, and for no other request. -/
structure ErasedRows (R : Table Uuid τ DataSubjectRequest) (E : Table Uuid τ Unit) : Prop where
  done : ∀ k, E.committed k = some () →
    ∃ r, R.committed k = some r ∧ r.requestType = .erase ∧ r.status = .fulfilled
  executed : ∀ k r, R.committed k = some r → r.requestType = .erase →
    r.executionStatus = .ready ∨ r.status = .fulfilled → E.committed k = some ()
  executes : ∀ k t r, R.holder k = some t → R.pending k = some r → r.requestType = .erase →
    r.executionStatus = .ready ∨ r.status = .fulfilled → E.view t k = some ()
  working : ∀ k t, E.holder k = some t → E.pending k = some () ∧ R.holder k = some t ∧
    ∃ r, R.pending k = some r ∧ r.requestType = .erase ∧ (r.status = .approved ∨ r.status = .fulfilled)

def erasedLaw : RowLaw Uuid Unit :=
  .persistent (fun _ _ _ => True) (fun _ _ => trivial) fun _ _ _ _ _ _ => trivial

/-! ## Fulfilled exports -/

def isUsableFor (request : Uuid) (now : Time) (a : ExportArtifact) : Bool :=
  a.dataSubjectRequestId == request && isReadyExportArtifactUsable now a

/-- `t` has checked the artifacts of the request at `now`, and one of them is ready, not
    expired at `now`, and about to stay so. -/
def HasUsable (db : Db τ) (t : τ) (request : Uuid) : Prop :=
  ∃ now, db.checked t = some (request, now) ∧
    ∃ k, db.artifacts.settled (isUsableFor request now) k = true

/-- Where an export request is about to become fulfilled, it has a usable artifact. -/
def Truthful (db : Db τ) : Prop :=
  ∀ k t r, db.requests.holder k = some t → db.requests.pending k = some r →
    r.requestType = .export → r.status = .fulfilled →
    (∀ before, db.requests.committed k = some before → before.status ≠ .fulfilled) → HasUsable db t k

/-! ## Artifacts -/

/-- A lease end is there only while processing with a token. -/
def ExportArtifact.IsLeased (a : ExportArtifact) : Prop :=
  a.processingLeaseExpiresAt ≠ none → a.status = .processing ∧ a.processingToken.isSome = true

def ExportArtifactStatus.isFinal : ExportArtifactStatus → Bool
  | .failed | .expired | .cancelled => true
  | _ => false

def ExportArtifactStatus.isReported : ExportArtifactStatus → Bool
  | .ready | .failed => true
  | _ => false

/-- Cancelled for the erasure of its subject. -/
def ExportArtifact.isErased (a : ExportArtifact) : Bool :=
  a.status == .cancelled && a.failureReasonCode == some subjectErasureCancelledExportReason

/-- What may become of an artifact. -/
structure Final (a next : ExportArtifact) : Prop where
  stays : a.status.isFinal = true → next.status.isFinal = true
  erased : a.isErased = true → next.isErased = true

theorem Final.refl (a : ExportArtifact) : Final a a := ⟨id, id⟩

theorem Final.trans {a b c : ExportArtifact} (first : Final a b) (second : Final b c) : Final a c :=
  ⟨second.stays ∘ first.stays, second.erased ∘ first.erased⟩

/-- The laws that a result is about beside those of requests and erasures, and the token
    with which each client reports on an artifact. -/
structure Concerns (τ : Type) where
  checks : Prop
  leases : Prop
  finality : Prop
  token : τ → Option String

/-- The client that ends the processing of an artifact does it with its token. -/
def Reported (token : Option String) (a next : ExportArtifact) : Prop :=
  a.status = .processing → next.status.isReported = true →
    a.processingToken.isSome = true ∧ a.processingToken = token

structure ArtifactRows (C : Concerns τ) (A : Table Uuid τ ExportArtifact) : Prop where
  leased : C.leases → A.Versions ExportArtifact.IsLeased
  reported : C.leases → A.Prepared fun t => Reported (C.token t)
  final : A.Prepared fun _ a next => C.finality → Final a next

def artifactLaw (C : Concerns τ) : RowLaw Uuid ExportArtifact :=
  .persistent (fun _ a next => C.finality → Final a next) (fun _ a _ => .refl a)
    fun _ _ _ _ first second about => (first about).trans (second about)

/-! ## The conditions -/

/-- The export request that becomes fulfilled has an artifact that is still usable. -/
def fulfilsTruly (t : τ) (s : Statement) (db : Db τ) : Bool :=
  match s with
  | .transitionStatusIfCurrent id expected values =>
      values.nextStatus != .fulfilled ||
        (db.requests.view t id).all fun r => r.status != expected || r.requestType != .export ||
          (db.checked t).any fun check => check.1 == id &&
            db.artifacts.keys.any fun k => db.artifacts.settled (isUsableFor id check.2) k
  | _ => true

/-- Is the request about to become fulfilled? -/
def isFulfilling (db : Db τ) (request : Uuid) : Bool :=
  (db.requests.pending request).any (·.status == .fulfilled) &&
    !(db.requests.committed request).any (·.status == .fulfilled)

/-- No artifact is taken out of READY while its request is about to become fulfilled. -/
def sparesFulfilling (t : τ) (s : Statement) (db : Db τ) : Bool :=
  match s with
  | .flushArtifact _ id loaded assigned => (db.artifacts.view t id).all fun current =>
      current.status != .ready || (loaded.flush assigned current).status == .ready ||
        !isFulfilling db current.dataSubjectRequestId
  | _ => true

/-- The artifact that is flushed still has the status and the token, and unless this renews
    its lease also the lease, with which it was loaded. -/
def keepsLeases (t : τ) (s : Statement) (db : Db τ) : Bool :=
  match s with
  | .flushArtifact writer id loaded _ => (db.artifacts.view t id).all fun current =>
      current.status == loaded.status && current.processingToken == loaded.processingToken &&
        (writer == .renewProcessingLease ||
          current.processingLeaseExpiresAt == loaded.processingLeaseExpiresAt)
  | _ => true

/-- The artifact whose status or reason is flushed still has those it was loaded with. -/
def keepsFinality (t : τ) (s : Statement) (db : Db τ) : Bool :=
  match s with
  | .flushArtifact _ id loaded assigned =>
      assigned.status == loaded.status && assigned.failureReasonCode == loaded.failureReasonCode ||
        (db.artifacts.view t id).all fun current =>
          current.status == loaded.status && current.failureReasonCode == loaded.failureReasonCode
  | _ => true

structure Allowed (C : Concerns τ) (t : τ) (s : Statement) (db : Db τ) : Prop where
  fulfils : C.checks → fulfilsTruly t s db = true
  spares : C.checks → sparesFulfilling t s db = true
  leases : C.leases → keepsLeases t s db = true
  finality : C.finality → keepsFinality t s db = true

/-! ## What a statement needs -/

/-- The transition is one that the service allows, out of the committed status. -/
structure TransitionOk (t : τ) (id : Uuid) (expected : DataSubjectRequestStatus)
    (values : DataSubjectRequest.Transition) (row : DataSubjectRequest) (db : Db τ) : Prop where
  clean : ∀ r, db.requests.committed id = some r → r.status = row.status
  approvable : values.nextStatus = .approved → row.requestType.isApprovable = true
  executed : values.nextStatus = .fulfilled → row.requestType = .erase → db.erased.view t id = some ()
  fulfils : db.erased.holder id = some t → values.nextStatus = .fulfilled

/-- The flush leaves the type and the status alone, and no erasure becomes ready before the
    providers ran. -/
structure FlushRequestOk (t : τ) (id : Uuid) (loaded assigned : DataSubjectRequest)
    (db : Db τ) : Prop where
  type : assigned.requestType = loaded.requestType
  status : assigned.status = loaded.status
  representative : assigned.representativeStatus = loaded.representativeStatus
  ready : assigned.executionStatus = .ready → assigned.executionStatus ≠ loaded.executionStatus →
    ∀ r, db.requests.view t id = some r → r.requestType = .erase → db.erased.view t id = some ()

/-- What a service may make of an artifact that it has loaded. -/
structure ArtifactChange (writer : Writer) (loaded assigned : ExportArtifact) : Prop where
  request : assigned.dataSubjectRequestId = loaded.dataSubjectRequestId
  expires : assigned.expiresAt = loaded.expiresAt
  leased : loaded.IsLeased → assigned.IsLeased
  renews : writer = .renewProcessingLease → assigned.status = loaded.status ∧
    assigned.processingToken = loaded.processingToken ∧ loaded.status = .processing ∧
    loaded.processingToken.isSome = true
  final : Final loaded assigned

structure FlushArtifactOk (C : Concerns τ) (t : τ) (writer : Writer) (id : Uuid)
    (loaded assigned : ExportArtifact) (db : Db τ) : Prop where
  change : ArtifactChange writer loaded assigned
  reported : C.leases → assigned.status.isReported = true → assigned.status ≠ loaded.status →
    ∀ a, db.artifacts.committed id = some a → Reported (C.token t) a assigned

/-- `t` has changed no status yet. -/
def Clean (t : τ) (db : Db τ) : Prop :=
  ∀ k r, db.requests.holder k = some t → db.requests.pending k = some r →
    ∃ before, db.requests.committed k = some before ∧ before.status = r.status

/-- A version of a request to which a savepoint goes back. -/
structure SavedOk (r before : DataSubjectRequest) : Prop where
  type : r.requestType = before.requestType
  status : r.status = .approved ∧ before.status = .approved
  running : r.executionStatus ≠ .ready
  entitled : r.IsEntitled

def Needs (C : Concerns τ) (t : τ) (s : Statement) (db : Db τ) : Prop :=
  match s with
  | .insertRequest _ row => row.status = .submitted ∧ row.executionStatus = .notStarted
  | .transitionStatusIfCurrent id expected values =>
      values.nextStatus ∈ expected.allowedTransitions ∧
        ∀ row, db.requests.view t id = some row → row.status = expected →
          TransitionOk t id expected values row db
  | .updateRepresentativeIfCurrent _ expected _ _ => expected.isReviewable = true
  | .flushRequest id loaded assigned => FlushRequestOk t id loaded assigned db
  | .insertArtifact _ row => row.processingLeaseExpiresAt = none
  | .flushArtifact writer id loaded assigned => FlushArtifactOk C t writer id loaded assigned db
  | .markErased id => db.requests.holder id = some t ∧ ∃ r, db.requests.pending id = some r ∧
      r.requestType = .erase ∧ r.status = .approved
  | .noteCheck _ _ => Clean t db
  | .rollbackTo saved => saved.artifacts = [] ∧ saved.erased = [] ∧
      ∀ k v, db.requests.holder k = some t → saved.requests.lookup k = some v →
        ∃ r before, v = some r ∧ db.requests.committed k = some before ∧ SavedOk r before
  | .commit => ∀ k, db.erased.holder k = some t →
      ∃ r, db.requests.pending k = some r ∧ r.status = .fulfilled
  | _ => True

end SaasTemplate.Privacy
