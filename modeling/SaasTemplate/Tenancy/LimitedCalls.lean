import SaasTemplate.Tenancy.AuthoritySteps

/-! # Tenants: calls that ask the business rate limiter

An operation as the API runs it: one call after the other, each with the limiter that its
route hands to the service. What the limiter counts, and how, is a parameter.
-/

set_option linter.unusedSectionVars false

namespace SaasTemplate.Tenancy

open SaasTemplate.Isolation SaasTemplate.Isolation.Prog SaasTemplate.Isolation.Machine

/-! ## Buckets -/

inductive BusinessPolicy where
  | tenantWriteOrganisation
  | inviteCreateOrganisation | inviteCreateOrganisationDaily
  | inviteCreateTargetEmail | inviteCreateTargetDomain
  | inviteResendInvite | inviteResendOrganisationDaily
  | inviteAcceptToken
  deriving DecidableEq, Repr

structure RateLimitBucket where
  kind : String
  rawValue : String
  deriving DecidableEq, Repr

/-- What a counter belongs to. -/
abbrev Bucket : Type := BusinessPolicy × RateLimitBucket

def authorizedTenantWriteBuckets (organisationId : Uuid) : List Bucket :=
  [(.tenantWriteOrganisation, ⟨"organisation", s!"organisation:{organisationId}"⟩)]

def normalisedEmail (text : TextOps) (value : String) : String := text.lower (text.strip value)

/-- What follows the last `@`, which a validated address has. -/
def domainFromEmail (text : TextOps) (normalisedEmail : String) : String :=
  text.lower (String.ofList (normalisedEmail.toList.reverse.takeWhile (· ≠ '@')).reverse)

def authorizedInviteCreateBuckets (text : TextOps) (organisationId : Uuid) (email : String) :
    List Bucket :=
  let normalised := normalisedEmail text email
  let domain := domainFromEmail text normalised
  let organisationRaw := s!"organisation:{organisationId}"
  [(.inviteCreateOrganisation, ⟨"organisation", organisationRaw⟩),
    (.inviteCreateOrganisationDaily, ⟨"organisation", organisationRaw⟩),
    (.inviteCreateTargetEmail,
      ⟨"organisation_target_email", s!"organisation:{organisationId}:email:{normalised}"⟩),
    (.inviteCreateTargetDomain,
      ⟨"organisation_target_domain", s!"organisation:{organisationId}:domain:{domain}"⟩)]

def authorizedInviteResendBuckets (organisationId inviteId : Uuid) : List Bucket :=
  [(.inviteResendInvite, ⟨"invite", s!"organisation:{organisationId}:invite:{inviteId}"⟩),
    (.inviteResendOrganisationDaily, ⟨"organisation", s!"organisation:{organisationId}"⟩)]

def inviteAcceptTokenBuckets (text : TextOps) (token : String) : List Bucket :=
  [(.inviteAcceptToken,
    ⟨"invite_accept_token", s!"token_sha256:{text.sha256 (text.strip token)}"⟩)]

/-! ## Calls -/

/-- A tenant operation, with the two that touch the organisation itself. -/
inductive LimitedCall where
  | tenant (op : TenantOp)
  | updateDetails (request : UpdateDetailsCall)
  | softDelete (organisationId actorUserId : Uuid) (auditActor : Option Uuid)

/-- The route of `accept_invite` asks the limiter before it calls the service. -/
def LimitedCall.program (text : TextOps) : LimitedCall → Tx Unit
  | .tenant (.acceptInvite request) => do
      sql .rateLimit
      (TenantOp.acceptInvite request).program text
  | .tenant op => op.program text
  | .updateDetails request => do let _ ← updateOrganisationDetails text request
  | .softDelete organisationId actorUserId auditActor =>
      Tenancy.softDelete organisationId actorUserId auditActor

/-- The buckets that the limiter of the route checks. -/
def LimitedCall.buckets (text : TextOps) : LimitedCall → List Bucket
  | .tenant (.createInvite request) =>
      authorizedInviteCreateBuckets text request.organisationId request.email
  | .tenant (.resendInvite request _) =>
      authorizedInviteResendBuckets request.organisationId request.inviteId
  | .tenant (.acceptInvite request) => inviteAcceptTokenBuckets text request.token
  | .tenant (.changeRole request _) | .tenant (.removeMembership request) =>
      authorizedTenantWriteBuckets request.organisationId
  | .updateDetails request => authorizedTenantWriteBuckets request.organisationId
  | .softDelete organisationId _ _ => authorizedTenantWriteBuckets organisationId
  | .tenant (.revokeInvite _) | .tenant (.createOrganisation _ _ _ _)
  | .tenant (.replaceOwner _ _ _) => []

/-- Organisation and actor of the calls that ask the limiter in the service. -/
def LimitedCall.target : LimitedCall → Option (Uuid × Uuid)
  | .tenant (.createInvite request) => some (request.organisationId, request.actorUserId)
  | .tenant (.resendInvite request _) => some (request.organisationId, request.actorUserId)
  | .tenant (.changeRole request _) | .tenant (.removeMembership request) =>
      some (request.organisationId, request.actorUserId)
  | .updateDetails request => some (request.organisationId, request.actorUserId)
  | .softDelete organisationId actorUserId _ => some (organisationId, actorUserId)
  | .tenant (.revokeInvite _) | .tenant (.acceptInvite _)
  | .tenant (.createOrganisation _ _ _ _) | .tenant (.replaceOwner _ _ _) => none

/-- The role of the actor permits the call on the row that it names. -/
def LimitedCall.Permits (rows : Rows) (actor : Membership) : LimitedCall → Prop
  | .tenant (.createInvite request) => MayGrant actor request.role
  | .tenant (.resendInvite request _) => ∀ i, rows.invite request.inviteId = some i →
      i.organisationId = request.organisationId → MayGrant actor i.role
  | .tenant (.changeRole _ _) => actor.role = .owner
  | .tenant (.removeMembership request) => ∀ m, rows.membership request.membershipId = some m →
      m.organisationId = request.organisationId → m.isActive = true → MayRemove actor m.role
  | .updateDetails _ => actor.role = .owner ∨ actor.role = .admin
  | .softDelete _ _ _ => actor.role = .owner
  | .tenant _ => True

/-! ## Running a call -/

/-- The limiter: its answer, what the counters hold then, and how late it is. -/
abbrev Limiter (β C : Type) : Type :=
  β → List Bucket → Time → (Bucket → C) → Except AppError Unit × (Bucket → C) × Time

/-- The database between calls, the counters, and the answer of the limiter in this call. -/
structure Quotas (C : Type) where
  rows : Rows
  contents : Bucket → C
  answer : Option (Except AppError Unit)

variable {β C α : Type}

def limitedExec (text : TextOps) (limiter : Limiter β C) (buckets : List Bucket) (backend : β)
    (s : Statement) (q : Quotas C) : Option (Except AppError (Answer s) × Quotas C) :=
  match s with
  | .rateLimit =>
      let (answer, contents, clock) := limiter backend buckets q.rows.clock q.contents
      some (answer, ⟨{ q.rows with clock }, contents, some answer⟩)
  | s => (exec text () s q.rows).map fun out => (out.1, { q with rows := out.2 })

/-- The database with the counters, for one client. -/
def limited (text : TextOps) (limiter : Limiter β C) (buckets : List Bucket) (backend : β) :
    Machine Unit Statement Answer AppError (Quotas C) where
  exec _ := limitedExec text limiter buckets backend
  fallible _ := False
  crash _ q := q
  env _ _ := False

def Quotas.committed (q : Quotas C) : Quotas C := { q with rows := q.rows.commit () }

def Quotas.rolledBack (q : Quotas C) : Quotas C := { q with rows := q.rows.rollback () }

/-- A call, when it is made, and what the limiter's backend is up to. -/
structure Call (β : Type) where
  request : LimitedCall
  time : Time
  backend : β

/-- The state in which a call starts. -/
def Quotas.opened (time : Time) (q : Quotas C) : Quotas C :=
  ⟨{ q.rows with clock := time }, q.contents, none⟩

def Call.run (text : TextOps) (limiter : Limiter β C) (call : Call β) (q : Quotas C) :
    Option (Except AppError Unit × Quotas C) :=
  (limited text limiter (call.request.buckets text) call.backend).solo ()
    (call.request.program text) (q.opened call.time)

/-- A call on the organisation that is refused before the limiter is asked: by an outsider,
    by a member whose role does not permit it, or for what a check has found. -/
inductive Call.Refused (text : TextOps) (limiter : Limiter β C) (organisation : Uuid)
    (q : Quotas C) (call : Call β) : Prop where
  | outsider (actor : Uuid) : call.request.target = some (organisation, actor) →
      (∀ m, ¬MemberAs q.rows organisation actor m) → Refused text limiter organisation q call
  | role (actor : Uuid) : call.request.target = some (organisation, actor) →
      (∀ m, MemberAs q.rows organisation actor m → ¬call.request.Permits q.rows m) →
      Refused text limiter organisation q call
  | precondition (actor : Uuid) (e : AppError) (after : Quotas C) :
      call.request.target = some (organisation, actor) →
      call.run text limiter q = some (.error e, after) → after.answer = none →
      Refused text limiter organisation q call

/-! ## Programs -/

section Programs

variable {text : TextOps} {limiter : Limiter β C} {buckets : List Bucket} {backend : β}
  {q m : Quotas C} {p body : Tx α} {s : Statement}

theorem limitedExec_other (h : s ≠ .rateLimit) :
    limitedExec text limiter buckets backend s q =
      (exec text () s q.rows).map fun out => (out.1, { q with rows := out.2 }) := by
  cases s <;> first | rfl | exact absurd rfl h

/-- A program that does not ask the limiter runs as before. -/
theorem solo_unlimited (only : p.Only (· ≠ .rateLimit)) :
    (limited text limiter buckets backend).solo () p q =
      ((machine Unit text).solo () p q.rows).map fun out => (out.1, { q with rows := out.2 }) := by
  induction p generalizing q with
  | done r => rfl
  | call s k ih =>
      have here : (limited text limiter buckets backend).exec () s q =
          (exec text () s q.rows).map fun out => (out.1, { q with rows := out.2 }) :=
        limitedExec_other only.1
      have there : (machine Unit text).exec () s q.rows = exec text () s q.rows := rfl
      rw [solo, solo, here, there]
      cases exec text () s q.rows with
      | none => rfl
      | some out => simp [ih out.1 (only.2 out.1)]

theorem solo_inTransaction :
    (limited text limiter buckets backend).solo () (inTransaction body) q =
      ((limited text limiter buckets backend).solo () body q).map fun out =>
        (out.1, match out.1 with
          | .ok _ => out.2.committed
          | .error _ => out.2.rolledBack) := by
  have commits : ∀ q, ∃ x, (limited text limiter buckets backend).exec () .commit q =
      some (.ok x, q.committed) := fun q => ⟨(), rfl⟩
  have rolls : ∀ q, ∃ x, (limited text limiter buckets backend).exec () .rollback q =
      some (.ok x, q.rolledBack) := fun q => ⟨(), rfl⟩
  rw [inTransaction, solo_transaction commits rolls]
  congr 1
  funext out
  obtain ⟨r, after⟩ := out
  cases r <;> rfl

/-- Once the limiter has answered, this stays on record. -/
theorem answer_stays {r : Except AppError α} (asked : q.answer ≠ none)
    (h : (limited text limiter buckets backend).solo () p q = some (r, m)) : m.answer ≠ none := by
  induction p generalizing q with
  | done r =>
      cases h
      exact asked
  | call s k ih =>
      obtain ⟨⟨r', middle⟩, executed, rest⟩ := Option.bind_eq_some_iff.mp h
      refine ih r' ?_ rest
      by_cases limit : s = .rateLimit
      · subst limit
        cases executed
        exact nofun
      · have executed := (limitedExec_other limit).symm.trans executed
        obtain ⟨out, -, is⟩ := Option.map_eq_some_iff.mp executed
        cases is
        exact asked

end Programs

end SaasTemplate.Tenancy
