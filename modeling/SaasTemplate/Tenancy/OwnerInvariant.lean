import SaasTemplate.Tenancy.OwnerOperations

/-! # Exactly one active owner in every run

The run theorem over the tenant and platform operations, and the schedule in which an
update by primary key hits a membership that has become the owner's since it was read.
-/

set_option linter.unusedSectionVars false

namespace SaasTemplate.Tenancy

open SaasTemplate.Isolation

/-- A call of a tenant or platform operation on memberships. -/
inductive TenantCall where
  | createOrganisation (identity : AuthenticatedPrincipal) (name slug : String) (ids : OnboardingIds)
  | acceptInvite (call : AcceptInviteCall)
  | changeMembershipRole (call : MembershipCall) (role : MembershipRole)
  | removeMembership (call : MembershipCall)
  | transferMembership (user organisation : Uuid) (role : MembershipRole) (newMembershipId : Uuid)
  | replaceOwnerMembership (organisation source replacement : Uuid)
  | emergencyReplaceOrganisationOwner (organisation source replacement : Uuid)
  | deactivateMembership (membership organisation : Uuid)
  | softDelete (organisation actor : Uuid) (auditActor : Option Uuid)

/-- The program of a call, without its result. -/
def TenantCall.program (text : TextOps) : TenantCall → Tx Unit
  | .createOrganisation identity name slug ids => do
      let _ ← createOrganisationForCurrentUser text identity name slug ids
  | .acceptInvite call => do let _ ← Tenancy.acceptInvite text call
  | .changeMembershipRole call role => do let _ ← Tenancy.changeMembershipRole call role
  | .removeMembership call => do let _ ← Tenancy.removeMembership call
  | .transferMembership user organisation role newId => do
      let _ ← Tenancy.transferMembership user organisation role newId
  | .replaceOwnerMembership organisation source replacement => do
      let _ ← Tenancy.replaceOwnerMembership organisation source replacement
  | .emergencyReplaceOrganisationOwner organisation source replacement => do
      let _ ← Tenancy.emergencyReplaceOrganisationOwner organisation source replacement
  | .deactivateMembership membership organisation => do
      let _ ← Tenancy.deactivateMembership membership organisation
  | .softDelete organisation actor auditActor => Tenancy.softDelete organisation actor auditActor

variable {τ : Type} [DecidableEq τ] {text : TextOps}

/-- Clients that are about to make their calls, on a committed database. -/
structure TenantStart (text : TextOps) (call : τ → TenantCall)
    (c : Config τ Statement Answer AppError (Db τ) Unit) : Prop where
  atRest : c.db.AtRest text
  calls : ∀ t, c.run t = some ((call t).program text)

theorem TenantCall.program_wp (call : TenantCall) {t : τ} {db : Db τ}
    (start : HoldsNoMembership t db) :
    wp (machine τ text) (ownerContract text τ) t (call.program text) (fun _ _ => True) db := by
  cases call with
  | createOrganisation identity name slug ids =>
      exact Terms.wp_result (createOrganisationForCurrentUser_wp identity name slug ids start)
  | acceptInvite call => exact Terms.wp_result (acceptInvite_wp call start)
  | changeMembershipRole call role => exact Terms.wp_result (changeMembershipRole_wp call role start)
  | removeMembership call => exact Terms.wp_result (removeMembership_wp call start)
  | transferMembership user organisation role newId =>
      exact Terms.wp_result (transferMembership_wp user organisation role newId start)
  | replaceOwnerMembership organisation source replacement =>
      exact Terms.wp_result (replaceOwnerMembership_wp source replacement start)
  | emergencyReplaceOrganisationOwner organisation source replacement =>
      exact Terms.wp_result (emergencyReplaceOrganisationOwner_wp source replacement start)
  | deactivateMembership membership organisation =>
      exact Terms.wp_result (deactivateMembership_wp membership organisation start)
  | softDelete organisation actor auditActor => exact softDelete_wp actor auditActor start

theorem TenantStart.safe {call : τ → TenantCall}
    {c : Config τ Statement Answer AppError (Db τ) Unit} (h : TenantStart text call c) :
    Contract.Sound.Safe (machine τ text) (ownerContract text τ) (fun _ _ _ => True) c := by
  refine ⟨h.atRest.lawful, fun t s k running => ?_⟩
  have program : (call t).program text = .call s k := Option.some.inj ((h.calls t).symm.trans running)
  rw [← program]
  exact (call t).program_wp fun k => by simp [h.atRest.memberships.unlocked k]

/-- In every run in which no update by primary key hits the membership of a present owner,
    an organisation that has been given its owner has exactly one until it is deleted. -/
theorem exactly_one_active_owner {call : τ → TenantCall}
    {start c d : Config τ Statement Answer AppError (Db τ) Unit} (h : TenantStart text call start)
    (before : (machine τ text).Reaches OwnerRowUntouched start c)
    (after : (machine τ text).Reaches OwnerRowUntouched c d) {organisation : Uuid}
    (given : HasActiveOwner c.db organisation) (live : ¬IsDeleted d.db organisation) :
    ExactlyOneActiveOwner d.db organisation := by
  have sound : (ownerContract text τ).Sound (machine τ text) := tenantContract_sound
  have safeC := sound.invariant h.safe before
  have safeD := sound.invariant safeC after
  have keeps : ∀ o, Settled c.db o → Settled d.db o := by
    refine sound.reaches_rel (P := fun db db' => ∀ o, Settled db o → Settled db' o)
      (fun _ _ h => h) (fun first second o h => second o (first o h)) (fun promised => promised.2)
      ?_ safeC after
    rintro db _ - ⟨clock, rfl⟩ o settled
    exact settled
  rcases keeps organisation (.inl given) with owner | deleted
  · exact owner.exactlyOne safeD.1
  · exact absurd deleted live

/-! ## The two schedules -/

/-- Organisation 1 with owner 100 (membership 10) and member 101 (membership 11). -/
def exampleDb : Db Bool where
  users := .ofRows [(100, exampleUser "owner"), (101, exampleUser "member")]
  organisations := .ofRows [(1, ⟨"Org", "org", none, .active⟩)]
  memberships := .ofRows [(10, ⟨100, 1, .owner, true⟩), (11, ⟨101, 1, .member, true⟩)]
  invites := .ofRows []
  clock := 0

/-- One client makes the member an admin, the other makes the member the owner. -/
def exampleCall : Bool → TenantCall
  | false => .changeMembershipRole ⟨1, 100, some 100, 11⟩ .admin
  | true => .replaceOwnerMembership 1 10 11

def exampleStart : Config Bool Statement Answer AppError (Db Bool) Unit :=
  ⟨exampleDb, fun t => some ((exampleCall t).program plainText)⟩

theorem exampleStart_start : TenantStart plainText exampleCall exampleStart :=
  ⟨⟨Table.atRest_ofRows (by decide), Table.atRest_ofRows (by decide),
    Table.atRest_ofRows (by decide), Table.atRest_ofRows (by decide)⟩, fun _ => rfl⟩

theorem exampleStart_given : HasActiveOwner exampleStart.db 1 :=
  ⟨10, ⟨100, 1, .owner, true⟩, rfl, rfl, rfl⟩

/-- Has organisation 1 an active owner, and is it deleted? -/
def ownerAndDeletion (c : Config Bool Statement Answer AppError (Db Bool) Unit) : Bool × Bool :=
  (c.db.memberships.keys.any fun k => (c.db.memberships.committed k).any (·.isActiveOwner),
    (c.db.organisations.committed 1).any (·.isDeleted))

/-- The role change runs to its end before the replacement starts. -/
theorem exactly_one_active_owner_example :
    ∃ d, (machine Bool plainText).Reaches OwnerRowUntouched exampleStart d ∧
      ExactlyOneActiveOwner d.db 1 := by
  have played : ((machine Bool plainText).play (fun t s db => !updatesOwnerRow t s db)
      (List.replicate 8 false ++ List.replicate 7 true) exampleStart).map ownerAndDeletion =
        some (true, false) := by decide
  have checked : ∀ (t : Bool) (s : Statement) (db : Db Bool),
      (!updatesOwnerRow t s db) = true → OwnerRowUntouched t s db :=
    fun t s db passed => by simpa [OwnerRowUntouched] using passed
  obtain ⟨d, run, seen⟩ := Machine.run_of_play checked played
  have live : ¬IsDeleted d.db 1 := by
    rintro ⟨o, here, deleted⟩
    simp [ownerAndDeletion, here, deleted] at seen
  exact ⟨d, run, exactly_one_active_owner exampleStart_start .refl run exampleStart_given live⟩

/-- The role change reads the member, the replacement commits, and then the role change
    demotes the new owner: the organisation is left without one. -/
theorem owner_lost_by_stale_update :
    ¬∀ (call : Bool → TenantCall) (start c d : Config Bool Statement Answer AppError (Db Bool) Unit),
      TenantStart plainText call start →
      (machine Bool plainText).Reaches (fun _ _ _ => True) start c →
      (machine Bool plainText).Reaches (fun _ _ _ => True) c d →
      ∀ organisation, HasActiveOwner c.db organisation → ¬IsDeleted d.db organisation →
        ExactlyOneActiveOwner d.db organisation := by
  intro claim
  have played : ((machine Bool plainText).play (fun _ _ _ => true)
      (List.replicate 5 false ++ List.replicate 7 true ++ List.replicate 3 false)
      exampleStart).map ownerAndDeletion = some (false, false) := by decide
  have checked : ∀ (t : Bool) (s : Statement) (db : Db Bool), true = true → True :=
    fun _ _ _ _ => trivial
  obtain ⟨d, run, seen⟩ := Machine.run_of_play checked played
  have live : ¬IsDeleted d.db 1 := by
    rintro ⟨o, here, deleted⟩
    simp [ownerAndDeletion, here, deleted] at seen
  obtain ⟨k, ⟨m, here, owner, -⟩, -⟩ :=
    claim exampleCall exampleStart exampleStart d exampleStart_start .refl run 1
      exampleStart_given live
  have listed := Table.mem_keys_of_committed here
  have found : (d.db.memberships.keys.any fun k =>
      (d.db.memberships.committed k).any (·.isActiveOwner)) = true :=
    List.any_eq_true.mpr ⟨k, listed, by simp [here, owner]⟩
  simp [ownerAndDeletion, found] at seen

end SaasTemplate.Tenancy
