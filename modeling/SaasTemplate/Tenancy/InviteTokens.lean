import SaasTemplate.Tenancy.InviteReadiness

/-! # Where token digests come from

A transaction writes one digest at most, that of the token its own call has drawn (or the
placeholder of an anonymised invite). A digest that is committed is therefore one that
some call has committed before, and since a call ends with its commit, nobody is left to
write it again.
-/

set_option linter.unusedSectionVars false

namespace SaasTemplate.Tenancy

open SaasTemplate.Isolation SaasTemplate.Isolation.Prog

variable {τ : Type} [DecidableEq τ] {text : TextOps} {op : τ → InviteOp} {t : τ} {db db' : Db τ}

/-- The token that the call has drawn. -/
def InviteOp.token : InviteOp → Option String
  | .create request => some request.token
  | .resend _ token => some token
  | _ => none

/-- What is assumed of SHA-256: no collisions, and no digest looks like the placeholder. -/
structure Digest (text : TextOps) : Prop where
  collisionFree : Function.Injective text.sha256
  notScrubbed : ∀ token id, text.sha256 token ≠ scrubbedInviteTokenHash id

/-- The drawn tokens are new: each is drawn once, and no invite carries it yet. -/
structure FreshTokens (text : TextOps) (op : τ → InviteOp) (db : Db τ) : Prop where
  distinct : ∀ t u token, (op t).token = some token → (op u).token = some token → t = u
  unused : ∀ t token, (op t).token = some token → ∀ k row, db.invites.committed k = some row →
    row.tokenHash ≠ text.sha256 token

/-- The hash is that of the token drawn by the call. -/
def InviteOp.Draws (text : TextOps) (op : InviteOp) (hash : String) : Prop :=
  ∃ token, op.token = some token ∧ hash = text.sha256 token

/-- The statements of an operation: the only digest they write is their own. -/
def InviteOp.Issues (text : TextOps) (op : InviteOp) : Statement → Prop
  | .insertInvite _ invite => op.Draws text invite.tokenHash
  | .rotatePendingToken _ _ newHash _ _ => op.Draws text newHash
  | .commit => False
  | _ => True

theorem InviteOp.program_transactional (op : InviteOp) :
    (op.program text).Transactional .commit .rollback (op.Issues text) := by
  have quiet : ∀ s : Statement, s.isQuiet = true → op.Issues text s := by
    intro s h
    cases s <;> trivial
  have users : ∀ s : Statement, s.writesUser = true → op.Issues text s := by
    intro s h
    cases s <;> trivial
  have outside : ¬op.Issues text .commit := fun h => h
  cases op with
  | create request =>
      exact (createInvite_transactional quiet outside fun _ _ hash => ⟨_, rfl, hash⟩).map fun _ => ()
  | accept request =>
      exact (acceptInvite_transactional quiet outside users (fun _ => trivial) (fun _ => trivial)
        fun _ => trivial).map fun _ => ()
  | resend request token =>
      exact (resendInvite_transactional quiet outside (fun _ => trivial)
        fun _ _ => ⟨_, rfl, rfl⟩).map fun _ => ()
  | revoke request => exact revokeInvite_transactional quiet outside fun _ => trivial
  | expireInDelivery invite => exact expireInDelivery_transactional quiet outside fun _ _ => trivial
  | anonymise retention =>
      exact (anonymiseCompletedInvites_transactional quiet outside fun _ => trivial).map fun _ => ()

/-! ## Digests that are prepared -/

/-- A row that `t` may leave behind at `k`: its digest is there already, or is the one drawn
    by `t`, or is the placeholder. -/
def HashFrom (text : TextOps) (op : τ → InviteOp) (t : τ) (k : Uuid) (committed : Option Invite)
    (row : Invite) : Prop :=
  (∃ old, committed = some old ∧ old.tokenHash = row.tokenHash) ∨
    (op t).Draws text row.tokenHash ∨ row.tokenHash = scrubbedInviteTokenHash k

def HashesKnown (text : TextOps) (op : τ → InviteOp) (db : Db τ) : Prop :=
  ∀ k t row, db.invites.holder k = some t → db.invites.pending k = some row →
    HashFrom text op t k (db.invites.committed k) row

theorem HashesKnown.view (h : HashesKnown text op db) {k : Uuid} {row : Invite}
    (seen : db.invites.view t k = some row) : HashFrom text op t k (db.invites.committed k) row := by
  by_cases held : db.invites.holder k = some t
  · exact h k t row held ((Table.view_of_held held).symm.trans seen)
  · exact .inl ⟨row, (Table.view_of_not_held held).symm.trans seen, rfl⟩

theorem HashFrom.of_same {k : Uuid} {committed : Option Invite} {old row : Invite}
    (h : HashFrom text op t k committed old) (same : row.tokenHash = old.tokenHash) :
    HashFrom text op t k committed row := by
  simpa only [HashFrom, same] using h

theorem InviteWrite.hashFrom {s : Statement} {clock : Time} {k : Uuid} {seen committed : Option Invite}
    {row : Invite} (write : InviteWrite clock k s seen row) (issued : (op t).Issues text s)
    (before : ∀ old, seen = some old → HashFrom text op t k committed old) :
    HashFrom text op t k committed row := by
  cases write with
  | insert => exact .inr (.inl issued)
  | rotate => exact .inr (.inl issued)
  | scrub => exact .inr (.inr rfl)
  | accept | expireByToken | revoke | expireById => exact (before _ rfl).of_same rfl

theorem HashesKnown.commit (h : HashesKnown text op db) (t : τ) :
    HashesKnown text op (db.commit t) := by
  intro k u row held here
  obtain ⟨before, other⟩ := Table.holder_commit_eq_some held
  have same := Table.cell_commit_of_not_held other
  simp only [Db.commit] at here ⊢
  rw [Table.committed_of_cell same]
  exact h k u row before ((Table.pending_of_cell same).symm.trans here)

theorem HashesKnown.rollback (h : HashesKnown text op db) (t : τ) :
    HashesKnown text op (db.rollback t) := by
  intro k u row held here
  obtain ⟨before, other⟩ := Table.holder_rollback_eq_some held
  have same := Table.cell_rollback_of_not_held other
  simp only [Db.rollback] at here ⊢
  rw [Table.committed_of_cell same]
  exact h k u row before ((Table.pending_of_cell same).symm.trans here)

theorem HashesKnown.exec {s : Statement} (h : HashesKnown text op db) (lawful : db.Lawful text)
    (issued : s = .commit ∨ s = .rollback ∨ (op t).Issues text s) {r : Except AppError (Answer s)}
    (executed : exec text t s db = some (r, db')) : HashesKnown text op db' := by
  cases exec_case lawful executed with
  | unchanged | user | organisation | membership => exact h
  | commit => exact h.commit t
  | rollback => exact h.rollback t
  | @invite k new ok write =>
      intro j u row held here
      rw [Table.committed_put]
      by_cases same : j = k
      · subst same
        obtain rfl : t = u := by simpa using held
        obtain rfl : new = row := by simpa using here
        have inner : (op t).Issues text s := by
          rcases issued with rfl | rfl | inner
          · cases write
          · cases write
          · exact inner
        exact write.hashFrom inner fun old seen => h.view seen
      · rw [Table.holder_put_other same] at held
        rw [Table.pending_put_other same] at here
        exact h j u row held here

end SaasTemplate.Tenancy
