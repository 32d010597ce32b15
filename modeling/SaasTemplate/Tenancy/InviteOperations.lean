import SaasTemplate.Tenancy.ServiceStatements
import SaasTemplate.Tenancy.RowLaws

/-! # Invite operations side by side

The operations that touch invites, as clients of the tenant database.
-/

set_option linter.unusedSectionVars false

namespace SaasTemplate.Tenancy

open SaasTemplate.Isolation

inductive InviteOp where
  | create (request : CreateInviteCall)
  | accept (request : AcceptInviteCall)
  | resend (request : InviteCall) (token : String)
  | revoke (request : InviteCall)
  | expireInDelivery (invite : Uuid)
  | anonymise (retention : InviteRetention)

/-- The program of an operation, without its result. -/
def InviteOp.program (text : TextOps) : InviteOp → Tx Unit
  | .create request => do let _ ← createInvite text request
  | .accept request => do let _ ← acceptInvite text request
  | .resend request token => do let _ ← resendInvite text request token
  | .revoke request => revokeInvite request
  | .expireInDelivery invite => Tenancy.expireInDelivery invite
  | .anonymise retention => do let _ ← anonymiseCompletedInvites retention

/-- Does the operation refuse expired invites? -/
def InviteOp.refusesExpired : InviteOp → Bool
  | .accept _ | .resend _ _ => true
  | _ => false

/-- Clients that are about to run their operations, on a committed database. -/
structure InviteStart {τ : Type} [DecidableEq τ] (text : TextOps) (op : τ → InviteOp)
    (c : Config τ Statement Answer AppError (Db τ) Unit) : Prop where
  atRest : c.db.AtRest text
  operations : ∀ t, c.run t = some ((op t).program text)

def CommittedStatus {τ : Type} [DecidableEq τ] (db : Db τ) (i : Uuid) (status : InviteStatus) :
    Prop :=
  ∃ row, db.invites.committed i = some row ∧ row.status = status

end SaasTemplate.Tenancy
