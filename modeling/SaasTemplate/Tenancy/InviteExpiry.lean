import SaasTemplate.Tenancy.InviteOperations
import SaasTemplate.Tenancy.TenantContract

/-! # An expired invite that is refused stays pending

`accept_invite` and `resend_invite` mark an invite expired and raise in one and the same
transaction, so the mark is rolled back with it. Neither call ever commits the status
that it reports, and the pending row goes on blocking new invites for the address.
-/

set_option linter.unusedSectionVars false

namespace SaasTemplate.Tenancy

open SaasTemplate.Isolation SaasTemplate.Isolation.Prog

variable {τ : Type} [DecidableEq τ]

/-- The call has found invite `i` pending past its expiry and marked it: its own version
    is expired, over a committed version that is pending. -/
structure RefusedAsExpired (t : τ) (i : Uuid) (db : Db τ) : Prop where
  held : db.invites.holder i = some t
  marked : ∃ row, db.invites.pending i = some row ∧ row.status = .expired
  was : ∃ row, db.invites.committed i = some row ∧ row.status = .pending

/-- Clients that refuse expired invites commit no expiry. -/
def CommitsNoExpiry (refuses : τ → Bool) (t : τ) (db db' : Db τ) : Prop :=
  refuses t = true → ∀ i, CommittedStatus db' i .expired → CommittedStatus db i .expired

instance (refuses : τ → Bool) : CommitPromise (CommitsNoExpiry refuses) where
  same t db db' same _ i := by simp [CommittedStatus, same.invites]

/-- The contract of the invite operations. -/
abbrev expiryContract (text : TextOps) (refuses : τ → Bool) : Contract τ Statement (Db τ) :=
  tenantContract text (CommitsNoExpiry refuses) fun _ _ _ => True

/-- None of the invites the transaction has changed is expired. -/
def NoneExpired (t : τ) (db : Db τ) : Prop :=
  ∀ i row, db.invites.holder i = some t → db.invites.pending i = some row → row.status ≠ .expired

/-- Statements that leave no expired invite behind. -/
def Statement.expiresNothing : Statement → Bool
  | .insertInvite _ _ | .expirePendingByTokenHash _ _ | .expirePendingById _ _ _
  | .scrubInvite _ | .commit => false
  | _ => true

theorem InviteWrite.not_expired {clock : Time} {k : Uuid} {s : Statement} {old : Option Invite}
    {new : Invite} (h : InviteWrite clock k s old new) (keeps : s.expiresNothing = true) :
    new.status ≠ .expired := by
  cases h <;> simp_all [Statement.expiresNothing]

section Steps

variable {text : TextOps} {refuses : τ → Bool} {t : τ} {s : Statement} {db db' : Db τ}

theorem noneExpired_stable : (expiryContract text refuses).Stable t (NoneExpired t) := by
  intro db db' h moved _ i row held here
  obtain ⟨before, same⟩ := moved.stays.invites.keeps.cell_of_held held
  exact h i row before (by rwa [Table.pending_of_cell same] at here)

theorem NoneExpired.step (h : NoneExpired t db) (keeps : s.expiresNothing = true)
    (lawful : db.Lawful text) {r : Except AppError (Answer s)}
    (executed : exec text t s db = some (r, db')) : NoneExpired t db' := by
  cases exec_case lawful executed with
  | unchanged | user | organisation | membership => exact h
  | commit is => subst is; cases keeps
  | rollback =>
      intro i row held _
      have released := Table.holder_rollback_eq_some held
      exact absurd released.1 released.2
  | @invite k new ok write =>
      intro i row held here
      by_cases same : i = k
      · subst same
        obtain rfl : new = row := by simpa using here
        exact write.not_expired keeps
      · rw [Table.holder_put_other same] at held
        rw [Table.pending_put_other same] at here
        exact h i row held here

theorem quiet_expiresNothing (s : Statement) (h : s.isQuiet = true) : s.expiresNothing = true := by
  cases s <;> first | rfl | cases h

theorem writesUser_expiresNothing (s : Statement) (h : s.writesUser = true) :
    s.expiresNothing = true := by
  cases s <;> first | rfl | cases h

theorem triple_expiresNothing {α : Type} {body : Tx α}
    (only : body.Only (·.expiresNothing = true)) :
    Triple (machine τ text) (expiryContract text refuses) t (NoneExpired t) body
      fun _ => NoneExpired t :=
  triple_only noneExpired_stable nofun
    (fun _ _ _ _ keeps h lawful _ executed => h.step keeps lawful executed) only

/-- Marking an invite expired never leads to the normal end of the transaction. -/
theorem triple_mark_and_raise {α : Type} {mark : Statement} {e : Answer mark → AppError}
    {B : α → Db τ → Prop} (open_ : mark ≠ .commit) :
    Triple (machine τ text) (expiryContract text refuses) t (NoneExpired t)
      (sql mark >>= fun a => (raise (e a) : Tx α)) B :=
  .bind (triple_sql (B := fun _ _ => True) noneExpired_stable open_ fun _ _ _ _ _ _ _ => trivial)
    fun _ => .raise

theorem NoneExpired.commit (h : NoneExpired t db) : CommitsNoExpiry refuses t db (db.commit t) := by
  rintro - i ⟨row, here, expired⟩
  have seen : db.invites.view t i = some row := by simpa [Db.commit] using here
  by_cases held : db.invites.holder i = some t
  · exact absurd expired (h i row held ((Table.view_of_held held).symm.trans seen))
  · exact ⟨row, (Table.view_of_not_held held).symm.trans seen, expired⟩

/-- A transaction that expires nothing unless it raises. -/
theorem wp_unexpired {α : Type} {body : Tx α}
    (run : Triple (machine τ text) (expiryContract text refuses) t (NoneExpired t) body
      fun _ => NoneExpired t) (start : NoneExpired t db) :
    wp (machine τ text) (expiryContract text refuses) t (inTransaction body) (fun _ _ => True) db :=
  wp_inTransaction run (fun _ => noneExpired_stable) (fun _ _ ready _ => ⟨trivial, ready.commit⟩) start

theorem acceptInvite_expiry (request : AcceptInviteCall) (start : NoneExpired t db) :
    wp (machine τ text) (expiryContract text refuses) t (acceptInvite text request)
      (fun _ _ => True) db := by
  apply wp_unexpired _ start
  apply (triple_expiresNothing (sql_only quiet_expiresNothing rfl)).bind
  intro now
  apply (triple_expiresNothing (only_stmt.mpr rfl)).bind
  intro invite
  cases invite with
  | none => exact triple_mark_and_raise nofun
  | some row =>
      exact triple_expiresNothing
        (acceptFoundInvite_only quiet_expiresNothing writesUser_expiresNothing fun _ => rfl)

theorem refuseIfExpired_triple (request : InviteCall) (invite : Invite) (now : Time) :
    Triple (machine τ text) (expiryContract text refuses) t (NoneExpired t)
      (refuseIfExpired request invite now) fun _ => NoneExpired t := by
  unfold refuseIfExpired
  split
  · exact triple_mark_and_raise nofun
  · exact .pure fun _ h => h

theorem resendInvite_expiry (request : InviteCall) (token : String) (start : NoneExpired t db) :
    wp (machine τ text) (expiryContract text refuses) t (resendInvite text request token)
      (fun _ _ => True) db := by
  apply Terms.wp_checked
  apply wp_unexpired _ start
  have quiet : ∀ {s : Statement}, s.isQuiet = true →
      Triple (machine τ text) (expiryContract text refuses) t (NoneExpired t) (sql s)
        fun _ => NoneExpired t :=
    fun h => triple_expiresNothing (sql_only quiet_expiresNothing h)
  apply (triple_expiresNothing (pendingInviteForActor_only quiet_expiresNothing _ _ _ _)).bind
  intro invite
  apply (quiet rfl).bind
  intro now
  apply (refuseIfExpired_triple request invite now).bind
  intro _
  apply (quiet rfl).bind
  intro _
  apply (quiet rfl).bind
  intro now
  apply (refuseIfExpired_triple request invite now).bind
  intro _
  apply (triple_expiresNothing (only_stmt.mpr rfl)).bind
  intro rotated
  cases rotated with
  | none =>
      apply (quiet rfl).bind
      intro retryNow
      exact triple_mark_and_raise nofun
  | some rotated =>
      apply (quiet rfl).bind
      intro _
      apply (quiet rfl).bind
      intro _
      exact .pure fun _ h => h

/-! ## The other invite operations promise nothing -/

/-- Statements inside a transaction. -/
def Statement.isInner (s : Statement) : Bool := s != .commit

theorem quiet_isInner (s : Statement) (h : s.isQuiet = true) : s.isInner = true := by
  cases s <;> first | rfl | cases h

theorem wp_unpromised {p : Tx Unit} (free : refuses t = false)
    (trans : p.Transactional .commit .rollback (·.isInner = true)) :
    wp (machine τ text) (expiryContract text refuses) t p (fun _ _ => True) db := by
  refine wp_transactional (A := fun _ => True) trans
    (fun _ _ _ _ _ => trivial) (fun _ _ _ _ _ _ _ _ _ => trivial)
    (fun _ _ _ => ⟨trivial, fun promised => ?_⟩) trivial
  simp [free] at promised

theorem InviteOp.program_expiry (op : InviteOp) (same : refuses t = op.refusesExpired)
    (start : NoneExpired t db) :
    wp (machine τ text) (expiryContract text refuses) t (op.program text) (fun _ _ => True) db := by
  have outside : ¬Statement.isInner .commit = true := by simp [Statement.isInner]
  cases op with
  | create request =>
      exact wp_unpromised same
        ((createInvite_transactional quiet_isInner outside fun _ _ _ => rfl).map fun _ => ())
  | accept request => exact Terms.wp_result (acceptInvite_expiry request start)
  | resend request token => exact Terms.wp_result (resendInvite_expiry request token start)
  | revoke request =>
      exact wp_unpromised same (revokeInvite_transactional quiet_isInner outside fun _ => rfl)
  | expireInDelivery invite =>
      exact wp_unpromised same (expireInDelivery_transactional quiet_isInner outside fun _ _ => rfl)
  | anonymise retention =>
      exact wp_unpromised same
        ((anonymiseCompletedInvites_transactional quiet_isInner outside fun _ => rfl).map fun _ => ())

end Steps

/-! ## Runs -/

section Runs

variable {text : TextOps} {op : τ → InviteOp}
  {start c d : Config τ Statement Answer AppError (Db τ) Unit} {t : τ} {i : Uuid}

theorem InviteStart.safe (h : InviteStart text op start) :
    Contract.Sound.Safe (machine τ text) (expiryContract text fun t => (op t).refusesExpired)
      (fun _ _ _ => True) start := by
  refine ⟨h.atRest.lawful, fun t s k running => ?_⟩
  have program : (op t).program text = .call s k :=
    Option.some.inj ((h.operations t).symm.trans running)
  rw [← program]
  exact (op t).program_expiry rfl fun i _ held => by simp [h.atRest.invites.unlocked i] at held

/-- A step of a call that has refused the invite as expired commits nothing of it. -/
theorem RefusedAsExpired.step (h : InviteStart text op start)
    (run : (machine τ text).Reaches (fun _ _ _ => True) start c)
    (step : (machine τ text).Step (fun _ _ _ => True) c d) (refuses : (op t).refusesExpired = true)
    (refused : RefusedAsExpired t i c.db) {s : Statement}
    {k : Except AppError (Answer s) → Tx Unit} (running : c.run t = some (.call s k))
    {r : Except AppError Unit} (ended : d.run t = some (.done r)) :
    d.db.invites.committed i = c.db.invites.committed i ∧
      ∀ u, u ≠ t → d.db.invites.holder i ≠ some u := by
  have sound : (expiryContract text fun t => (op t).refusesExpired).Sound (machine τ text) :=
    tenantContract_sound
  have safe := sound.invariant h.safe run
  have moved : d.run t ≠ c.run t := by simp [running, ended]
  have elsewhere : ∀ u, u ≠ t → c.db.invites.holder i ≠ some u := by
    intro u other held
    exact other (Option.some.inj (held.symm.trans refused.held))
  rcases step.of_moved running moved with ⟨r', -, executed, -⟩ | ⟨e, -, same, -⟩ | ⟨-, lost⟩
  · have promised := ((safe.2 t s k running c.db (sound.rely_refl t _) safe.1).2.1 r' d.db trivial
      executed).2.1
    have case := exec_case safe.1 executed
    have notCommit : s ≠ .commit := by
      rintro rfl
      have committed : c.db.commit t = d.db := congrArg Prod.snd (Option.some.inj executed)
      obtain ⟨row, here, expired⟩ := refused.marked
      obtain ⟨old, was, pending⟩ := refused.was
      have after : d.db.invites.committed i = some row := by
        rw [← committed]
        simpa [Db.commit, Table.view_of_held refused.held] using here
      obtain ⟨old', was', expired'⟩ := promised.2 refuses i ⟨row, after, expired⟩
      obtain rfl : old = old' := Option.some.inj (was.symm.trans was')
      simp [pending] at expired'
    refine ⟨(case.sameCommitted notCommit).invites i, fun u other held => ?_⟩
    have kept := (promised.1.invites.respects.keeps other i).2
    exact kept (elsewhere u other) held
  · rw [same]
    exact ⟨rfl, elsewhere⟩
  · simp [ended] at lost

/-- The actor of the call may invite a user with this role into the organisation. -/
structure MayInvite (text : TextOps) (u : τ) (request : CreateInviteCall) (db : Db τ) : Prop where
  audit : request.auditActor = some request.actorUserId
  role : request.role ≠ .owner
  actor : ∃ m, (machine τ text).solo u
      (getActorMembership request.organisationId request.actorUserId) db = some (.ok m, db) ∧
    m.role ≠ .member ∧ ¬(m.role = .admin ∧ request.role = .admin)

/-- A pending invite for the address makes `create_invite` refuse. -/
theorem createInvite_refused {u : τ} {request : CreateInviteCall} {db : Db τ} {row : Invite}
    (may : MayInvite text u request db) (seen : db.invites.view u i = some row)
    (pending : row.status = .pending) (inOrg : row.organisationId = request.organisationId)
    (email : text.sqlLower row.email = text.lower (text.lower (text.strip request.email))) :
    (machine τ text).solo u (createInvite text request) db =
      some (.error pendingInviteExists, db.rollback u) := by
  obtain ⟨m, actor, notMember, notAdmin⟩ := may.actor
  let p (_ : Uuid) (j : Invite) : Bool := j.organisationId == request.organisationId &&
    text.sqlLower j.email == text.lower (text.lower (text.strip request.email)) && j.isPending
  have found : (db.invites.selectOne u p).isSome = true :=
    Table.selectOne_isSome seen (by simp [p, inOrg, email, isPending_iff.mpr pending])
  have lookup : (machine τ text).solo u
      (sql (.pendingInviteByEmail request.organisationId (text.lower (text.strip request.email)))) db =
        some (.ok (db.invites.selectOne u p), db) := Machine.solo_stmt rfl
  unfold createInvite ensureAuditActorMatches
  rw [Machine.solo_bind_ok (Machine.solo_raiseIf_passed (by simp [may.audit]))]
  have rolls : (machine τ text).exec u .rollback db = some (.ok (), db.rollback u) := rfl
  refine Machine.solo_transaction_error ?_ rolls
  rw [Machine.solo_bind_ok (Machine.solo_raiseIf_passed may.role), Machine.solo_bind_ok actor,
    Machine.solo_bind_ok (Machine.solo_raiseIf_passed notMember),
    Machine.solo_bind_ok (Machine.solo_raiseIf_passed notAdmin), Machine.solo_bind_ok lookup,
    Machine.solo_bind_error (Machine.solo_raiseIf_raised found)]

end Runs

/-! ## A run that refuses an expired invite -/

def expiredInvite : Invite where
  email := "new@example.org"
  organisationId := 1
  role := .member
  status := .pending
  tokenHash := plainText.sha256 "token"
  expiresAt := some 5
  revokedAt := none
  revokedByUserId := none
  updatedAt := 0

/-- Organisation 1 with its owner and an invite that ran out at time 5; it is time 10. -/
def expiredDb : Db Bool where
  users := .ofRows [(100, exampleUser "owner")]
  organisations := .ofRows [(1, ⟨"Org", "org", none, .active⟩)]
  memberships := .ofRows [(10, ⟨100, 1, .owner, true⟩)]
  invites := .ofRows [(7, expiredInvite)]
  clock := 10

/-- One client accepts the invite, the other will invite the same address again. -/
def expiredOp : Bool → InviteOp
  | false => .accept ⟨"token", ⟨"new", some "new@example.org", true, none, none⟩, 101, 11⟩
  | true => .create ⟨1, 100, some 100, .member, "new@example.org", 8, "second"⟩

def expiredStart : Config Bool Statement Answer AppError (Db Bool) Unit :=
  ⟨expiredDb, fun t => some ((expiredOp t).program plainText)⟩

theorem expiredStart_start : InviteStart plainText expiredOp expiredStart :=
  ⟨⟨Table.atRest_ofRows (by decide), Table.atRest_ofRows (by decide),
    Table.atRest_ofRows (by decide), Table.atRest_ofRows (by decide)⟩, fun _ => rfl⟩

/-- The versions of one invite and its holder, and where a client is. -/
structure InviteSeen where
  committed : Option InviteStatus
  pending : Option InviteStatus
  holder : Option Bool
  waiting : Option Statement
  result : Option (Except AppError Unit)
  deriving DecidableEq

def inviteSeven (c : Config Bool Statement Answer AppError (Db Bool) Unit) : InviteSeen where
  committed := (c.db.invites.committed 7).map (·.status)
  pending := (c.db.invites.pending 7).map (·.status)
  holder := c.db.invites.holder 7
  waiting := c.waiting false
  result := c.result false

/-- Up to the mark and the raise, and then the rollback. -/
theorem expired_schedule :
    ∃ c d, (machine Bool plainText).Reaches (fun _ _ _ => True) expiredStart c ∧
      (machine Bool plainText).Step (fun _ _ _ => True) c d ∧
      inviteSeven c = ⟨some .pending, some .expired, some false, some .rollback, none⟩ ∧
      inviteSeven d = ⟨some .pending, none, none, none, some (.error invalidInvite)⟩ := by
  have played : ((machine Bool plainText).play (fun _ _ _ => true) (List.replicate 3 false)
      expiredStart).bind (fun c => ((machine Bool plainText).next (fun _ _ _ => true) false c).map
        fun d => (inviteSeven c, inviteSeven d)) =
      some (⟨some .pending, some .expired, some false, some .rollback, none⟩,
        ⟨some .pending, none, none, none, some (.error invalidInvite)⟩) := by decide
  have checked : ∀ (t : Bool) (s : Statement) (db : Db Bool), true = true → True :=
    fun _ _ _ _ => trivial
  obtain ⟨c, first, played⟩ := Option.bind_eq_some_iff.mp played
  obtain ⟨d, last, seen⟩ := Option.map_eq_some_iff.mp played
  obtain ⟨seenC, seenD⟩ := Prod.mk.inj seen
  exact ⟨c, d, Machine.play_reaches checked first, Machine.next_step checked last, seenC, seenD⟩

/-- What the schedule shows of the client and of the invite. -/
theorem expired_schedule_refused {c : Config Bool Statement Answer AppError (Db Bool) Unit}
    (seen : inviteSeven c = ⟨some .pending, some .expired, some false, some .rollback, none⟩) :
    RefusedAsExpired false 7 c.db ∧ ∃ k, c.run false = some (.call .rollback k) := by
  simp only [inviteSeven, InviteSeen.mk.injEq, Option.map_eq_some_iff] at seen
  obtain ⟨was, marked, held, waiting, -⟩ := seen
  exact ⟨⟨held, marked, was⟩, Config.run_of_waiting waiting⟩

end SaasTemplate.Tenancy
