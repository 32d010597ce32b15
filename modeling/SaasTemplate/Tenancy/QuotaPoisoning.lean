import SaasTemplate.Isolation.RowVersions
import SaasTemplate.Tenancy.Authority
import SaasTemplate.Tenancy.LimitedCalls

/-! # Tenants: refused calls use up no quota

Two runs of calls that differ by refused calls only. Such a call never reaches the limiter,
and the transaction it is rolled back in leaves no trace, so that the calls the runs have
in common find the same counters and the same rows.
-/

set_option linter.unusedSectionVars false

namespace SaasTemplate.Tenancy

open SaasTemplate.Isolation SaasTemplate.Isolation.Prog SaasTemplate.Isolation.Machine

variable {β C α γ : Type} {text : TextOps} {limiter : Limiter β C} {buckets : List Bucket}
  {backend : β} {q m : Quotas C} {db db' : Rows} {s : Statement}

/-! ## Rows at rest -/

/-- No transaction is open. -/
def AtRest (db : Rows) : Prop := db.rollback () = db

theorem rollback_rollback (db : Rows) : (db.rollback ()).rollback () = db.rollback () := by
  simp [Db.rollback, Table.rollback_rollback]

theorem rollback_commit (db : Rows) : (db.commit ()).rollback () = db.commit () := by
  simp [Db.rollback, Db.commit, Table.rollback_commit]

theorem AtRest.clock (h : AtRest db) (clock : Time) : AtRest { db with clock } := by
  have same : db.rollback () = db := h
  show ({ db.rollback () with clock } : Rows) = { db with clock }
  rw [same]

/-- The statements before the limiter is asked: all but one only read. -/
def Statement.isUndone : Statement → Bool
  | .expirePendingById _ _ _ => true
  | s => s.isQuiet

theorem isUndone_of_isQuiet (s : Statement) (h : s.isQuiet = true) : s.isUndone = true := by
  cases s <;> first | rfl | cases h

theorem exec_undone {r : Except AppError (Answer s)} (undone : s.isUndone = true)
    (h : exec text () s db = some (r, db')) : db'.rollback () = db.rollback () := by
  by_cases quiet : s.isQuiet = true
  · rw [exec_quiet quiet h]
  cases s with
  | expirePendingById id organisation now =>
      obtain ⟨T, updated, rfl⟩ := onInvites_eq h
      rcases Table.update_cases updated with ⟨rfl, -⟩ | ⟨i, j, seen, -, ok, rfl, -⟩
      · rfl
      · simp only [Db.rollback, Table.rollback_put ok.free seen]
  | _ => exact absurd undone quiet

/-- What the limiter and the counters have seen of a state, and the rows that a rollback
    would restore. -/
structure Untouched (q m : Quotas C) : Prop where
  contents : m.contents = q.contents
  answer : m.answer = q.answer
  rows : m.rows.rollback () = q.rows.rollback ()

/-- Until it asks the limiter, a program does nothing that a rollback does not undo. -/
theorem untouched_of_onlyBefore {p : Tx α} {r : Except AppError α}
    (only : p.OnlyBefore .rateLimit fun s => s.isUndone = true)
    (h : (limited text limiter buckets backend).solo () p q = some (r, m))
    (unasked : m.answer = none) : Untouched q m := by
  induction p generalizing q with
  | done r =>
      cases h
      exact ⟨rfl, rfl, rfl⟩
  | call s k ih =>
      obtain ⟨⟨r', middle⟩, executed, rest⟩ := Option.bind_eq_some_iff.mp h
      by_cases limit : s = .rateLimit
      · subst limit
        cases executed
        exact absurd unasked (answer_stays (Option.some_ne_none _) rest)
      · obtain ⟨undone, only⟩ := only.resolve_left limit
        have executed := (limitedExec_other limit).symm.trans executed
        obtain ⟨⟨r'', db'⟩, wrote, is⟩ := Option.map_eq_some_iff.mp executed
        cases is
        obtain ⟨contents, answer, rows⟩ := ih _ (only _) rest
        exact ⟨contents, answer, rows.trans (exec_undone undone wrote)⟩

/-! ## After a call -/

/-- The program leaves no transaction open. -/
def Closes (text : TextOps) (limiter : Limiter β C) (buckets : List Bucket) (backend : β)
    (p : Tx α) : Prop :=
  ∀ q r m, AtRest q.rows → (limited text limiter buckets backend).solo () p q = some (r, m) →
    AtRest m.rows

section Closes

theorem closes_pure {a : α} : Closes text limiter buckets backend (pure a) := by
  intro q r m rest h
  cases h
  exact rest

theorem closes_raiseIf {cond : Prop} [Decidable cond] {e : AppError} :
    Closes text limiter buckets backend (raiseIf cond e) := by
  intro q r m rest h
  unfold raiseIf at h
  split at h <;> cases h <;> exact rest

theorem closes_rateLimit : Closes text limiter buckets backend (sql .rateLimit) := by
  intro q r m rest h
  cases h
  exact rest.clock _

theorem closes_inTransaction {body : Tx α} :
    Closes text limiter buckets backend (inTransaction body) := by
  intro q r m rest h
  rw [solo_inTransaction] at h
  obtain ⟨⟨r', middle⟩, -, is⟩ := Option.map_eq_some_iff.mp h
  cases r' with
  | ok a =>
      cases is
      exact rollback_commit _
  | error e =>
      cases is
      exact rollback_rollback _

theorem Closes.bind {p : Tx α} {f : α → Tx γ} (first : Closes text limiter buckets backend p)
    (rest : ∀ a, Closes text limiter buckets backend (f a)) :
    Closes text limiter buckets backend (p >>= f) := by
  intro q r m start h
  rw [solo_bind] at h
  obtain ⟨⟨r', middle⟩, ran, after⟩ := Option.bind_eq_some_iff.mp h
  have between := first q r' middle start ran
  cases r' with
  | ok a => exact rest a middle r m between after
  | error e =>
      cases after
      exact between

theorem LimitedCall.program_closes (request : LimitedCall) :
    Closes text limiter buckets backend (request.program text) := by
  have dropped : ∀ {α : Type} {body : Tx α}, Closes text limiter buckets backend
      (inTransaction body >>= fun _ => pure ()) := closes_inTransaction.bind fun _ => closes_pure
  have checked : ∀ {α : Type} {cond : Prop} [Decidable cond] {e : AppError} {body : Tx α},
      Closes text limiter buckets backend
        ((raiseIf cond e >>= fun _ => inTransaction body) >>= fun _ => pure ()) :=
    (closes_raiseIf.bind fun _ => closes_inTransaction).bind fun _ => closes_pure
  cases request with
  | updateDetails => exact checked
  | softDelete => exact closes_raiseIf.bind fun _ => closes_inTransaction
  | tenant op =>
      cases op with
      | acceptInvite => exact closes_rateLimit.bind fun _ => dropped
      | createOrganisation => exact dropped
      | revokeInvite => exact closes_raiseIf.bind fun _ => closes_inTransaction
      | createInvite | resendInvite | changeRole | removeMembership | replaceOwner =>
          exact checked

end Closes

/-! ## Refusals before the limiter -/

/-- If the program fails and the limiter was not asked, nothing is left of it. -/
def Traceless (text : TextOps) (limiter : Limiter β C) (buckets : List Bucket) (backend : β)
    (p : Tx α) : Prop :=
  ∀ q e m, (limited text limiter buckets backend).solo () p q = some (.error e, m) →
    m.answer = none → Untouched q m

section Traceless

theorem traceless_inTransaction {body : Tx α}
    (only : body.OnlyBefore .rateLimit fun s => s.isUndone = true) :
    Traceless text limiter buckets backend (inTransaction body) := by
  intro q e m h unasked
  rw [solo_inTransaction] at h
  obtain ⟨⟨r, middle⟩, ran, is⟩ := Option.map_eq_some_iff.mp h
  cases r with
  | ok a => cases is
  | error e =>
      cases is
      obtain ⟨contents, answer, rows⟩ := untouched_of_onlyBefore only ran unasked
      exact ⟨contents, answer, (rollback_rollback _).trans rows⟩

/-- A check of the arguments before the transaction. -/
theorem Traceless.checked {cond : Prop} [Decidable cond] {e : AppError} {p : Tx α}
    (h : Traceless text limiter buckets backend p) :
    Traceless text limiter buckets backend (raiseIf cond e >>= fun _ => p) := by
  unfold raiseIf
  split
  · intro q e m ends _
    cases ends
    exact ⟨rfl, rfl, rfl⟩
  · exact h

theorem Traceless.dropped {p : Tx α} (h : Traceless text limiter buckets backend p) :
    Traceless text limiter buckets backend (p >>= fun _ => pure ()) := by
  intro q e m ends unasked
  rw [solo_bind] at ends
  obtain ⟨⟨r, middle⟩, ran, after⟩ := Option.bind_eq_some_iff.mp ends
  cases r with
  | ok a => cases after
  | error e =>
      cases after
      exact h q _ _ ran unasked

theorem normalizeIfGiven_only {P : Statement → Prop} {normalize : String → Tx String}
    {value : Option String} (h : ∀ raw, (normalize raw).Only P) :
    (normalizeIfGiven normalize value).Only P := by
  cases value with
  | none => trivial
  | some raw => exact only_bind (h raw) fun _ => trivial

theorem normalizeName_only {P : Statement → Prop} (raw : String) :
    (normalizeName text raw).Only P :=
  only_bind only_raiseIf fun _ => trivial

theorem normalizeSlug_only {P : Statement → Prop} (raw : String) :
    (normalizeSlug text raw).Only P :=
  only_bind only_raiseIf fun _ => only_bind only_raiseIf fun _ => trivial

theorem LimitedCall.program_traceless {request : LimitedCall} {target : Uuid × Uuid}
    (limits : request.target = some target) :
    Traceless text limiter buckets backend (request.program text) := by
  have quiet := isUndone_of_isQuiet
  have reads : ∀ {s : Statement}, s.isQuiet = true → (sql s).Only fun s => s.isUndone = true :=
    sql_only quiet
  cases request with
  | updateDetails request =>
      refine (Traceless.checked (traceless_inTransaction ?_)).dropped
      refine onlyBefore_bind (getOrganisation_only quiet _) fun organisation => ?_
      refine onlyBefore_bind (getUserById_only quiet _) fun actor => ?_
      refine onlyBefore_bind only_raiseIf fun _ => onlyBefore_bind only_raiseIf fun _ => ?_
      refine onlyBefore_bind (reads rfl) fun found => onlyBefore_bind only_raiseIf fun _ => ?_
      refine onlyBefore_bind (normalizeIfGiven_only normalizeName_only) fun name => ?_
      refine onlyBefore_bind (normalizeIfGiven_only normalizeSlug_only) fun slug => ?_
      show (if _ then _ else _ : Tx Organisation).OnlyBefore _ _
      split
      · trivial
      · exact onlyBefore_stop
  | softDelete organisationId actorUserId auditActor =>
      refine Traceless.checked (traceless_inTransaction ?_)
      refine onlyBefore_bind (getOrganisation_only quiet _) fun organisation => ?_
      refine onlyBefore_bind (getUserById_only quiet _) fun actor => ?_
      refine onlyBefore_bind only_raiseIf fun _ => onlyBefore_bind only_raiseIf fun _ => ?_
      refine onlyBefore_bind (reads rfl) fun found => onlyBefore_bind only_raiseIf fun _ => ?_
      refine onlyBefore_bind (reads rfl) fun count => onlyBefore_bind only_raiseIf fun _ => ?_
      exact onlyBefore_stop
  | tenant op =>
      cases op with
      | createInvite request =>
          refine (Traceless.checked (traceless_inTransaction ?_)).dropped
          refine onlyBefore_bind only_raiseIf fun _ => ?_
          refine onlyBefore_bind (getActorMembership_only quiet _ _) fun actor => ?_
          refine onlyBefore_bind only_raiseIf fun _ => onlyBefore_bind only_raiseIf fun _ => ?_
          refine onlyBefore_bind (reads rfl) fun pending => onlyBefore_bind only_raiseIf fun _ => ?_
          exact onlyBefore_stop
      | resendInvite request token =>
          refine (Traceless.checked (traceless_inTransaction ?_)).dropped
          refine onlyBefore_bind (pendingInviteForActor_only quiet _ _ _ _) fun invite => ?_
          refine onlyBefore_bind (reads rfl) fun now => ?_
          refine onlyBefore_bind (refuseIfExpired_only rfl) fun _ => ?_
          exact onlyBefore_stop
      | changeRole request role =>
          refine (Traceless.checked (traceless_inTransaction ?_)).dropped
          refine onlyBefore_bind (actorAndTarget_only quiet _) fun pair => ?_
          refine onlyBefore_bind only_raiseIf fun _ => onlyBefore_bind only_raiseIf fun _ => ?_
          refine onlyBefore_bind only_raiseIf fun _ => onlyBefore_bind only_raiseIf fun _ => ?_
          exact onlyBefore_stop
      | removeMembership request =>
          refine (Traceless.checked (traceless_inTransaction ?_)).dropped
          refine onlyBefore_bind (actorAndTarget_only quiet _) fun pair => ?_
          refine onlyBefore_bind only_raiseIf fun _ => onlyBefore_bind only_raiseIf fun _ => ?_
          refine onlyBefore_bind only_raiseIf fun _ => ?_
          exact onlyBefore_stop
      | revokeInvite | acceptInvite | createOrganisation | replaceOwner => cases limits

end Traceless

/-! ## Who does not reach the limiter -/

/-- The program fails, and does not ask the limiter. -/
def Bars (text : TextOps) (limiter : Limiter β C) (buckets : List Bucket) (backend : β)
    (p : Tx α) (q : Quotas C) : Prop :=
  ∀ r m, (limited text limiter buckets backend).solo () p q = some (r, m) →
    (∃ e, r = .error e) ∧ m.answer = q.answer

section Bars

theorem bars_raiseIf {cond : Prop} [Decidable cond] {e : AppError} {f : Unit → Tx α}
    (h : ¬cond → Bars text limiter buckets backend (f ()) q) :
    Bars text limiter buckets backend (raiseIf cond e >>= f) q := by
  unfold raiseIf
  split
  · intro r m ends
    cases ends
    exact ⟨⟨e, rfl⟩, rfl⟩
  · rename_i passed
    exact h passed

/-- A check that does not ask the limiter, and what it ensures when it passes. -/
theorem bars_bind {p : Tx α} {f : α → Tx γ} {Q : α → Rows → Prop}
    (only : p.Only (· ≠ .rateLimit)) (ends : Ends text p Q q.rows)
    (rest : ∀ a rows, Q a rows → Bars text limiter buckets backend (f a) { q with rows }) :
    Bars text limiter buckets backend (p >>= f) q := by
  intro r m h
  rw [solo_bind, solo_unlimited only] at h
  obtain ⟨⟨r', middle⟩, ran, after⟩ := Option.bind_eq_some_iff.mp h
  obtain ⟨⟨r'', rows⟩, here, is⟩ := Option.map_eq_some_iff.mp ran
  cases is
  cases r'' with
  | ok a => exact rest a rows (ends a rows here) r m after
  | error e =>
      cases after
      exact ⟨⟨e, rfl⟩, rfl⟩

theorem Bars.inTransaction {body : Tx α} (h : Bars text limiter buckets backend body q) :
    Bars text limiter buckets backend (inTransaction body) q := by
  intro r m ends
  rw [solo_inTransaction] at ends
  obtain ⟨⟨r', middle⟩, ran, is⟩ := Option.map_eq_some_iff.mp ends
  obtain ⟨⟨e, rfl⟩, same⟩ := h r' middle ran
  cases is
  exact ⟨⟨e, rfl⟩, same⟩

theorem Bars.dropped {p : Tx α} (h : Bars text limiter buckets backend p q) :
    Bars text limiter buckets backend (p >>= fun _ => pure ()) q := by
  intro r m ends
  rw [solo_bind] at ends
  obtain ⟨⟨r', middle⟩, ran, after⟩ := Option.bind_eq_some_iff.mp ends
  obtain ⟨⟨e, rfl⟩, same⟩ := h r' middle ran
  cases after
  exact ⟨⟨e, rfl⟩, same⟩

/-- `update_organisation_details` and `_soft_delete` begin with these checks. -/
theorem bars_organisationMember {organisation actor : Uuid}
    {f : Organisation → Option (Uuid × Membership) → Tx α}
    (rest : ∀ o found, (∀ row, found = some row → MemberAs q.rows organisation actor row.2) →
      Bars text limiter buckets backend (f o found) q) :
    Bars text limiter buckets backend (do
      let o ← getOrganisation organisation
      let user ← getUserById actor
      ensureUserIsActive user
      ensureOrganisationActive o
      let membership ← sql (.membershipIn actor organisation)
      f o membership) q := by
  refine bars_bind (getOrganisation_reads (fun _ _ h => h) _) (ends_getOrganisation _)
    fun o rows is => ?_
  subst is
  refine bars_bind (getUserById_reads (fun _ _ h => h) _) (ends_getUserById _)
    fun user rows is => ?_
  subst is
  refine bars_raiseIf fun _ => bars_raiseIf fun _ => ?_
  refine bars_bind (Q := fun found rows => rows = q.rows ∧ ∀ row, found = some row →
    MemberAs q.rows organisation actor row.2) (only_stmt.mpr nofun)
    (ends_stmt fun found _ h => ?_) fun found rows seen => ?_
  · obtain ⟨-, same⟩ := read_ok h
    exact ⟨same.symm, fun row is => (membershipIn_rows h is).1⟩
  · obtain ⟨rfl, seen⟩ := seen
    exact rest o found seen

/-- Whoever is no member, or has a role that does not permit the call, is sent away. -/
theorem LimitedCall.program_bars {request : LimitedCall} {organisation actor : Uuid}
    (limits : request.target = some (organisation, actor))
    (barred : ∀ m, MemberAs q.rows organisation actor m → ¬request.Permits q.rows m) :
    Bars text limiter buckets backend (request.program text) q := by
  cases request with
  | updateDetails request =>
      cases limits
      refine Bars.dropped (bars_raiseIf fun _ => Bars.inTransaction ?_)
      refine bars_organisationMember fun o found seen => bars_raiseIf fun allowed => ?_
      cases found with
      | none => exact absurd rfl allowed
      | some row =>
          refine absurd ?_ (barred row.2 (seen row rfl))
          simpa [LimitedCall.Permits, imp_iff_not_or] using allowed
  | softDelete organisationId actorUserId auditActor =>
      cases limits
      refine bars_raiseIf fun _ => Bars.inTransaction ?_
      refine bars_organisationMember fun o found seen => bars_raiseIf fun allowed => ?_
      cases found with
      | none => exact absurd rfl allowed
      | some row =>
          refine absurd ?_ (barred row.2 (seen row rfl))
          simpa [LimitedCall.Permits] using allowed
  | tenant op =>
      cases op with
      | createInvite request =>
          cases limits
          refine Bars.dropped (bars_raiseIf fun _ => Bars.inTransaction ?_)
          refine bars_raiseIf fun _ => ?_
          refine bars_bind (getActorMembership_reads (fun _ _ h => h) _ _)
            (ends_getActorMembership _ _) ?_
          rintro m rows ⟨rfl, member⟩
          refine bars_raiseIf fun notMember => bars_raiseIf fun notAdmin => ?_
          exact absurd ⟨notMember, notAdmin⟩ (barred m member)
      | resendInvite request token =>
          cases limits
          refine Bars.dropped (bars_raiseIf fun _ => Bars.inTransaction ?_)
          refine bars_bind (pendingInviteForActor_reads (fun _ _ h => h) _ _ _ _)
            (ends_pendingInviteForActor _ _ _ _) ?_
          rintro invite rows ⟨rfl, seen, -, -, m, member, may⟩
          refine absurd ?_ (barred m member)
          intro i here _
          cases seen.symm.trans here
          exact may
      | changeRole request role =>
          cases limits
          refine Bars.dropped (bars_raiseIf fun _ => Bars.inTransaction ?_)
          refine bars_bind (actorAndTarget_reads (fun _ _ h => h) _) (ends_actorAndTarget _) ?_
          rintro ⟨m, target⟩ rows ⟨rfl, member, -⟩
          refine bars_raiseIf fun _ => bars_raiseIf fun _ => bars_raiseIf fun owner => ?_
          exact absurd (not_not.mp owner) (barred m member)
      | removeMembership request =>
          cases limits
          refine Bars.dropped (bars_raiseIf fun _ => Bars.inTransaction ?_)
          refine bars_bind (actorAndTarget_reads (fun _ _ h => h) _) (ends_actorAndTarget _) ?_
          rintro ⟨m, target⟩ rows ⟨rfl, member, seen, -, -⟩
          refine bars_raiseIf fun owner => bars_raiseIf fun adminOnly => ?_
          refine bars_raiseIf fun privileged => absurd ?_ (barred m member)
          intro t here _ _
          cases seen.symm.trans here
          exact mayRemove_of_checks owner adminOnly privileged
      | revokeInvite | acceptInvite | createOrganisation | replaceOwner => cases limits

end Bars

/-! ## Two runs -/

variable {organisation : Uuid} {start q' : Quotas C} {call : Call β}

/-- The same counters and the same rows, whatever the time is. -/
structure Alike (q m : Quotas C) : Prop where
  contents : m.contents = q.contents
  rows : ∀ clock, ({ m.rows with clock } : Rows) = { q.rows with clock }

theorem Alike.refl (q : Quotas C) : Alike q q := ⟨rfl, fun _ => rfl⟩

theorem Alike.symm (h : Alike q m) : Alike m q :=
  ⟨h.contents.symm, fun clock => (h.rows clock).symm⟩

theorem Alike.trans {a b c : Quotas C} (first : Alike a b) (second : Alike b c) : Alike a c :=
  ⟨second.contents.trans first.contents, fun clock => (second.rows clock).trans (first.rows clock)⟩

/-- A call starts the same way in states that are alike. -/
theorem Alike.opened (h : Alike q m) (time : Time) : m.opened time = q.opened time := by
  unfold Quotas.opened
  rw [h.contents, h.rows time]

theorem Alike.run (h : Alike q m) : call.run text limiter m = call.run text limiter q := by
  unfold Call.run
  rw [h.opened]

theorem Call.run_closes {r : Except AppError Unit} (rest : AtRest q.rows)
    (ran : call.run text limiter q = some (r, m)) : AtRest m.rows :=
  call.request.program_closes _ r m (rest.clock call.time) ran

/-- A refused call changes nothing. -/
theorem Call.Refused.alike {r : Except AppError Unit}
    (refused : call.Refused text limiter organisation q) (rest : AtRest q.rows)
    (ran : call.run text limiter q = some (r, m)) : Alike q m := by
  have failed : ∃ actor e, call.request.target = some (organisation, actor) ∧ r = .error e ∧
      m.answer = none := by
    cases refused with
    | outsider actor limits outside =>
        obtain ⟨⟨e, is⟩, unasked⟩ := LimitedCall.program_bars (q := q.opened call.time) limits
          (fun m member => absurd member (outside m)) r m ran
        exact ⟨actor, e, limits, is, unasked⟩
    | role actor limits barred =>
        obtain ⟨⟨e, is⟩, unasked⟩ := LimitedCall.program_bars (q := q.opened call.time) limits
          barred r m ran
        exact ⟨actor, e, limits, is, unasked⟩
    | precondition actor e after limits same unasked =>
        cases ran.symm.trans same
        exact ⟨actor, e, limits, rfl, unasked⟩
  obtain ⟨actor, e, limits, rfl, unasked⟩ := failed
  have untouched := LimitedCall.program_traceless limits _ e m ran unasked
  have before : AtRest (q.opened call.time).rows := rest.clock call.time
  have after : AtRest m.rows := Call.run_closes rest ran
  have rows : m.rows = { q.rows with clock := call.time } :=
    after.symm.trans (untouched.rows.trans before)
  exact ⟨untouched.contents, fun clock => by rw [rows]⟩

/-- How a call ended, and what the limiter answered in it. -/
structure Outcome where
  result : Except AppError Unit
  answer : Option (Except AppError Unit)
  deriving DecidableEq

/-- Two runs from one state that differ by refused calls on the organisation: where each of
    them stands, and how the calls that they have in common ended in it. -/
inductive Twins (text : TextOps) (limiter : Limiter β C) (organisation : Uuid)
    (start : Quotas C) : List Outcome → Quotas C → List Outcome → Quotas C → Prop where
  | start : Twins text limiter organisation start [] start [] start
  | common {outs outs' : List Outcome} {q q' m m' : Quotas C} {r r' : Except AppError Unit}
      (call : Call β) : Twins text limiter organisation start outs q outs' q' →
      call.run text limiter q = some (r, m) → call.run text limiter q' = some (r', m') →
      Twins text limiter organisation start (outs ++ [⟨r, m.answer⟩]) m
        (outs' ++ [⟨r', m'.answer⟩]) m'
  | left {outs outs' : List Outcome} {q q' m : Quotas C} {r : Except AppError Unit}
      (call : Call β) : Twins text limiter organisation start outs q outs' q' →
      call.Refused text limiter organisation q → call.run text limiter q = some (r, m) →
      Twins text limiter organisation start outs m outs' q'
  | right {outs outs' : List Outcome} {q q' m' : Quotas C} {r' : Except AppError Unit}
      (call : Call β) : Twins text limiter organisation start outs q outs' q' →
      call.Refused text limiter organisation q' → call.run text limiter q' = some (r', m') →
      Twins text limiter organisation start outs q outs' m'

/-- What both runs keep: no open transaction, and each other's state and outcomes. -/
theorem Twins.agree {outs outs' : List Outcome} (rest : AtRest start.rows)
    (h : Twins text limiter organisation start outs q outs' q') :
    AtRest q.rows ∧ AtRest q'.rows ∧ Alike q q' ∧ outs = outs' := by
  induction h with
  | start => exact ⟨rest, rest, .refl _, rfl⟩
  | common call _ ran ran' ih =>
      obtain ⟨left, right, alike, same⟩ := ih
      cases ran.symm.trans (alike.run.symm.trans ran')
      exact ⟨Call.run_closes left ran, Call.run_closes left ran, .refl _, by rw [same]⟩
  | left call _ refused ran ih =>
      obtain ⟨left, right, alike, same⟩ := ih
      exact ⟨Call.run_closes left ran, right, (refused.alike left ran).symm.trans alike, same⟩
  | right call _ refused ran ih =>
      obtain ⟨left, right, alike, same⟩ := ih
      exact ⟨left, Call.run_closes right ran, alike.trans (refused.alike right ran), same⟩

/-- Refused calls on an organisation use up no quota: two runs that differ by them find the
    same in every bucket, and their other calls get the same answers of the limiter. -/
theorem no_quota_poisoning {outs outs' : List Outcome} (rest : AtRest start.rows)
    (h : Twins text limiter organisation start outs q outs' q') :
    (∀ bucket, q.contents bucket = q'.contents bucket) ∧ outs = outs' := by
  obtain ⟨-, -, alike, same⟩ := h.agree rest
  exact ⟨fun bucket => congrFun alike.contents.symm bucket, same⟩

/-- One hit in each bucket is allowed. -/
def exampleLimiter : Limiter Unit Nat := fun _ buckets clock contents =>
  if buckets.all (contents · < 1) then
    (.ok (), fun bucket => if bucket ∈ buckets then contents bucket + 1 else contents bucket, clock)
  else (.error (.external "TooManyRequestsError"), contents, clock)

def exampleQuotas : Quotas Nat := ⟨exampleTenant, fun _ => 0, none⟩

/-- User 7, who is no member, tries to delete organisation 5; then its owner makes user 2 an
    admin, in both runs. -/
theorem no_quota_poisoning_example :
    ∃ q q' : Quotas Nat, ∃ outcome : Outcome,
      Twins plainText exampleLimiter 5 exampleQuotas [outcome] q [outcome] q' ∧
        outcome = ⟨.ok (), some (.ok ())⟩ ∧ ∀ bucket, q.contents bucket = q'.contents bucket := by
  let intruder : Call Unit := ⟨.softDelete 5 7 (some 7), 0, ()⟩
  let owner : Call Unit := ⟨.tenant (.changeRole ⟨5, 1, some 1, 11⟩ .admin), 1, ()⟩
  have rest : AtRest exampleTenant := by
    simp [AtRest, Db.rollback, exampleTenant, Table.rollback_ofRows]
  have outside : ∀ m, ¬MemberAs exampleTenant 5 7 m := by
    rintro m ⟨id, there, user, -⟩
    have known : id ∈ [10, 11] := Table.mem_keys_of_view there
    simp only [List.mem_cons, List.not_mem_nil, or_false] at known
    rcases known with rfl | rfl <;> cases there <;> cases user
  have refused : intruder.Refused plainText exampleLimiter 5 exampleQuotas :=
    .outsider 7 rfl outside
  obtain ⟨⟨r, m⟩, turned⟩ := Option.isSome_iff_exists.mp
    (show (intruder.run plainText exampleLimiter exampleQuotas).isSome = true by decide)
  have played : (owner.run plainText exampleLimiter exampleQuotas).map
      (fun out => (out.1, out.2.answer)) = some (.ok (), some (.ok ())) := by decide
  obtain ⟨⟨r', m'⟩, ran, is⟩ := Option.map_eq_some_iff.mp played
  have twins := (Twins.left intruder .start refused turned).common owner
    ((refused.alike rest turned).run.trans ran) ran
  obtain ⟨rfl, answered⟩ := Prod.mk.inj is
  exact ⟨m', m', ⟨.ok (), m'.answer⟩, twins, by rw [answered], (no_quota_poisoning rest twins).1⟩

end SaasTemplate.Tenancy
