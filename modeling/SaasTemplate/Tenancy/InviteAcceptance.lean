import SaasTemplate.Tenancy.InviteOperations
import SaasTemplate.Tenancy.TenantContract

/-! # What an acceptance commits

The transaction of `accept_invite` can only commit with the pending invite of its token
accepted and one membership prepared for the projection of the caller. Between its reads
of `users` and its commit others may change that row; but the invite operations write a
user only together with an active membership, and then the membership insert collides.
-/

set_option linter.unusedSectionVars false

namespace SaasTemplate.Tenancy

open SaasTemplate.Isolation SaasTemplate.Isolation.Prog

variable {τ : Type} [DecidableEq τ]

/-- The row is the projection of the caller's claims. -/
structure Projects (identity : AuthenticatedPrincipal) (user : User) : Prop where
  externalAuthId : user.externalAuthId = identity.externalAuthId
  email : user.email = identity.email
  emailVerified : user.emailVerified = identity.emailVerified

/-- The step accepts invite `i`, which was `old`, for user `uid`: the invite has been
    pending under the caller's token and for the caller's verified address, it becomes
    accepted, one membership appears, and nothing else of the two tables changes. -/
structure Accepts (text : TextOps) (request : AcceptInviteCall) (i : Uuid) (old : Invite)
    (uid : Uuid) (db db' : Db τ) : Prop where
  was : db.invites.committed i = some old
  pending : old.status = .pending
  token : old.tokenHash = text.sha256 request.token
  accepted : ∃ now, db'.invites.committed i =
    some { old with status := .accepted, updatedAt := now }
  verified : request.identity.emailVerified = true
  email : ∃ email, request.identity.email = some email ∧ text.lower old.email = text.lower email
  user : ∃ user, db'.users.committed uid = some user ∧ Projects request.identity user
  fresh : db.memberships.committed request.newMembershipId = none
  membership : db'.memberships.committed request.newMembershipId =
    some (.new uid old.organisationId old.role)
  otherInvites : ∀ j, j ≠ i → db'.invites.committed j = db.invites.committed j
  otherMemberships : ∀ k, k ≠ request.newMembershipId →
    db'.memberships.committed k = db.memberships.committed k

/-- The step accepts no invite and leaves users and memberships alone. -/
structure AcceptsNone (db db' : Db τ) : Prop where
  invites : ∀ i, CommittedStatus db' i .accepted → CommittedStatus db i .accepted
  users : ∀ k, db'.users.committed k = db.users.committed k
  memberships : ∀ k, db'.memberships.committed k = db.memberships.committed k

/-- The transaction has put the digest of its new token on the invite. -/
def Rotated (text : TextOps) (t : τ) (i : Uuid) (token : String) (db : Db τ) : Prop :=
  db.invites.holder i = some t ∧
    ∃ row, db.invites.pending i = some row ∧ row.tokenHash = text.sha256 token

/-- What an operation shows when it commits. -/
def InviteOp.Ready (text : TextOps) (t : τ) (db : Db τ) : InviteOp → Prop
  | .accept request => ∃ i old uid, Accepts text request i old uid db (db.commit t)
  | .resend request token =>
      AcceptsNone db (db.commit t) ∧ Rotated text t request.inviteId token db
  | _ => AcceptsNone db (db.commit t)

/-- The user is an active member somewhere. -/
def IsMember (uid : Uuid) (db : Db τ) : Prop :=
  ∃ k m, db.memberships.committed k = some m ∧ m.userId = uid ∧ m.isActive = true

/-- Memberships stay as they are, and a user changes only when it is a member. -/
structure MembersStay (_ : τ) (db db' : Db τ) : Prop where
  memberships : ∀ k m, db.memberships.committed k = some m → db'.memberships.committed k = some m
  users : ∀ uid, db'.users.committed uid = db.users.committed uid ∨ IsMember uid db'

theorem membersStay_of_same {t : τ} {db db' : Db τ}
    (users : ∀ k, db'.users.committed k = db.users.committed k)
    (memberships : ∀ k, db'.memberships.committed k = db.memberships.committed k) :
    MembersStay t db db' :=
  ⟨fun k _ here => (memberships k).trans here, fun uid => .inl (users uid)⟩

instance : CommitPromise (MembersStay (τ := τ)) where
  same _ _ _ same := membersStay_of_same same.users same.memberships

/-- The terms of the invite operations. -/
abbrev acceptanceTerms (text : TextOps) (op : τ → InviteOp) : Terms (tenantDiscipline τ text) :=
  tenantTerms text MembersStay (fun _ _ _ => True) fun t db => (op t).Ready text t db

abbrev acceptanceContract (text : TextOps) (op : τ → InviteOp) : Contract τ Statement (Db τ) :=
  (acceptanceTerms text op).contract

section Steps

variable {text : TextOps} {op : τ → InviteOp} {t : τ} {db db' : Db τ} {uid : Uuid}

theorem MembersStay.isMember (h : MembersStay t db db') (member : IsMember uid db) :
    IsMember uid db' := by
  obtain ⟨k, m, here, rest⟩ := member
  exact ⟨k, m, h.memberships k m here, rest⟩

/-- What others can do to a user row: leave it, or change it along with a membership. -/
theorem users_of_promised
    (moved : Relation.ReflTransGen (fun a b => ∃ u : τ, MembersStay u a b) db db') (uid : Uuid) :
    (IsMember uid db → IsMember uid db') ∧
      (db'.users.committed uid = db.users.committed uid ∨ IsMember uid db') := by
  induction moved with
  | refl => exact ⟨fun h => h, .inl rfl⟩
  | tail _ last ih =>
      obtain ⟨u, step⟩ := last
      refine ⟨fun member => step.isMember (ih.1 member), ?_⟩
      rcases ih.2 with same | member
      · rcases step.users uid with same' | member
        · exact .inl (same'.trans same)
        · exact .inr member
      · exact .inr (step.isMember member)

/-! ## The projection of the caller -/

/-- A user row with this external identity is a member's, whoever inserted it. -/
def Unclaimed (t : τ) (externalAuthId : String) (db : Db τ) : Prop :=
  db.users.HoldsNone t ∧ ∀ uid user, db.users.committed uid = some user →
    user.externalAuthId = externalAuthId → IsMember uid db

/-- A committed row with this external identity. -/
def Known (t : τ) (externalAuthId : String) (uid : Uuid) (db : Db τ) : Prop :=
  db.users.HoldsNone t ∧
    ∃ user, db.users.committed uid = some user ∧ user.externalAuthId = externalAuthId

/-- The row the transaction sees for its user is the projection of the caller, unless
    the user has become a member in the meantime. -/
def UserOf (t : τ) (identity : AuthenticatedPrincipal) (uid : Uuid) (db : Db τ) : Prop :=
  db.users.HoldsOnly t uid ∧
    ((∃ user, db.users.view t uid = some user ∧ Projects identity user) ∨ IsMember uid db)

theorem unclaimed_stable {externalAuthId : String} :
    (acceptanceContract text op).Stable t (Unclaimed t externalAuthId) := by
  intro db db' h moved _
  refine ⟨moved.stays.users.keeps.holdsNone h.1, fun uid user here same => ?_⟩
  obtain ⟨kept, unchanged | member⟩ := users_of_promised moved.promised uid
  · exact kept (h.2 uid user (unchanged.symm.trans here) same)
  · exact member

theorem known_stable {externalAuthId : String} {uid : Uuid} :
    (acceptanceContract text op).Stable t (Known t externalAuthId uid) := by
  rintro db db' ⟨none, user, here, same⟩ moved _
  obtain ⟨user', there, same'⟩ := moved.stays.users.evolves uid user here
  exact ⟨moved.stays.users.keeps.holdsNone none, user', there, same'.trans same⟩

/-- The row is still the one that was read, unless its user has become a member. -/
def StillAt (uid : Uuid) (user : User) (db : Db τ) : Prop :=
  db.users.committed uid = some user ∨ IsMember uid db

theorem stillAt_stable {uid : Uuid} {user : User} :
    (acceptanceContract text op).Stable t (StillAt uid user) := by
  intro db db' h moved _
  obtain ⟨kept, same | member⟩ := users_of_promised moved.promised uid
  · exact h.imp (fun here => same.trans here) kept
  · exact .inr member

theorem userOf_stable {identity : AuthenticatedPrincipal} :
    (acceptanceContract text op).Stable t (UserOf t identity uid) := by
  rintro db db' ⟨only, which⟩ moved _
  refine ⟨moved.stays.users.keeps.holdsOnly only, ?_⟩
  obtain ⟨kept, unchanged⟩ := users_of_promised moved.promised uid
  rcases which with ⟨user, seen, projects⟩ | member
  · by_cases held : db.users.holder uid = some t
    · have same := moved.stays.users.keeps.cell held
      exact .inl ⟨user, by rwa [Table.view, same], projects⟩
    · have notHeld := moved.stays.users.keeps.not_held held
      rcases unchanged with same | member
      · rw [Table.view_of_not_held held] at seen
        exact .inl ⟨user, by rw [Table.view_of_not_held notHeld, same, seen], projects⟩
      · exact .inr member
  · exact .inr (kept member)

/-- What the user provisioning does not touch. -/
structure Framed (text : TextOps) (op : τ → InviteOp) (t : τ) (F : Db τ → Prop) : Prop where
  stable : (acceptanceContract text op).Stable t F
  users : ∀ db T, F db → F { db with users := T }

section Provisioning

variable {F : Db τ → Prop} {identity : AuthenticatedPrincipal}

/-- `except IntegrityError` around a single statement that leaves the store alone when
    it fails. -/
theorem triple_onIntegrityError {α : Type} {s : Statement} {A : Db τ → Prop} {B : α → Db τ → Prop}
    {f : Answer s → α} {handler : Tx α} (stable : (acceptanceContract text op).Stable t A)
    (open_ : s ≠ .commit)
    (effect : ∀ db r db', A db → db.Lawful text → exec text t s db = some (r, db') →
      (∀ a, r = .ok a → B (f a) db') ∧ (∀ e, r = .error e → A db'))
    (recovers : Triple (machine τ text) (acceptanceContract text op) t A handler B) :
    Triple (machine τ text) (acceptanceContract text op) t A
      (onIntegrityError (sql s >>= fun a => pure (f a)) handler) B := by
  have recover : ∀ e db, A db → wp (machine τ text) (acceptanceContract text op) t
      (if e = .integrityError then handler else raise e) (fun r db' => ∀ a, r = .ok a → B a db') db := by
    intro e db held
    split
    · exact recovers db held
    · exact nofun
  intro db start
  apply wp_handle
  apply wp_bind
  refine wp_stmt fun db' moved lawful => ?_
  have here := stable db db' start moved lawful
  refine ⟨fun is => absurd is open_, fun r db'' _ executed => ?_, fun _ e => recover e db' here⟩
  obtain ⟨kept, moves, promised⟩ :=
    Terms.keeps (T := acceptanceTerms text op) lawful trivial (fun is => absurd is open_) executed
      open_
  obtain ⟨succeeds, fails⟩ := effect db' r db'' here lawful executed
  refine ⟨kept, ⟨moves, promised⟩, ?_⟩
  cases r with
  | ok a =>
      rintro b ⟨⟩
      exact succeeds a rfl
  | error e => exact recover e db'' (fails e rfl)

theorem insertUser_effect {id : Uuid} {user : User} {A : Db τ → Prop} {r : Except AppError Unit}
    (held : A db) (executed : exec text t (.insertUser id user) db = some (r, db')) :
    (∀ e, r = .error e → A db') ∧
      (∀ a, r = .ok a → db' = { db with users := db.users.put t id (some user) }) := by
  obtain ⟨T, inserted, rfl⟩ := onUsers_eq executed
  rcases Table.insert_cases inserted with ⟨rfl, rfl⟩ | ⟨-, -, rfl, rfl⟩
  · exact ⟨fun _ _ => held, nofun⟩
  · exact ⟨nofun, fun _ _ => rfl⟩

theorem createCurrentUser_triple (framed : Framed text op t F) (newUserId : Uuid) :
    Triple (machine τ text) (acceptanceContract text op) t
      (fun db => F db ∧ Unclaimed t identity.externalAuthId db)
      (createCurrentUser identity newUserId)
      fun out db => F db ∧ UserOf t identity out.1 db := by
  have stable : (acceptanceContract text op).Stable t
      fun db => F db ∧ Unclaimed t identity.externalAuthId db := framed.stable.and unclaimed_stable
  refine triple_onIntegrityError stable (by simp) ?_ ?_
  · rintro db r db' ⟨frame, unclaimed⟩ - executed
    obtain ⟨fails, succeeds⟩ := insertUser_effect (A := fun db =>
      F db ∧ Unclaimed t identity.externalAuthId db) ⟨frame, unclaimed⟩ executed
    refine ⟨fun a ok => ?_, fails⟩
    obtain rfl := succeeds a ok
    exact ⟨framed.users _ _ frame, (unclaimed.1.only newUserId).put _,
      .inl ⟨.ofIdentity identity, by simp, rfl, rfl, rfl⟩⟩
  · have reads : Triple (machine τ text) (acceptanceContract text op) t
        (fun db => F db ∧ Unclaimed t identity.externalAuthId db)
        (sql (.userByExternalAuthId identity.externalAuthId))
        fun out db => F db ∧ ∀ row, out = some row → UserOf t identity row.1 db := by
      refine triple_sql stable (by simp) ?_
      rintro db out db' ⟨frame, none, unclaimed⟩ - - executed
      obtain ⟨rfl, rfl⟩ := read_ok executed
      refine ⟨frame, ?_⟩
      rintro ⟨uid, user⟩ found
      obtain ⟨seen, same⟩ := Table.selectOne_spec found
      rw [none.view] at seen
      exact ⟨none.only uid, .inr (unclaimed uid user seen (by simpa using same))⟩
    refine reads.bind fun out => ?_
    exact Triple.orRaise.weaken (fun _ h => h) fun row db h => ⟨h.1.1, h.1.2 row h.2⟩

theorem refreshCurrentUserProfile_triple (framed : Framed text op t F) (uid : Uuid) (user : User) :
    Triple (machine τ text) (acceptanceContract text op) t
      (fun db => F db ∧ Known t identity.externalAuthId uid db ∧ db.users.committed uid = some user)
      (refreshCurrentUserProfile uid user identity)
      fun out db => F db ∧ UserOf t identity out.1 db := by
  unfold refreshCurrentUserProfile
  split
  · rename_i same
    refine .pure ?_
    rintro db ⟨frame, ⟨none, _, here, known⟩, here'⟩
    obtain rfl := Option.some.inj (here.symm.trans here')
    refine ⟨frame, none.only uid, .inl ⟨_, (none.view uid).trans here, known, ?_, ?_⟩⟩
    · exact (congrArg User.email same).symm
    · exact (congrArg User.emailVerified same).symm
  · have stable : (acceptanceContract text op).Stable t
        fun db => F db ∧ Known t identity.externalAuthId uid db ∧ StillAt uid user db :=
      framed.stable.and (known_stable.and stillAt_stable)
    have updates : Triple (machine τ text) (acceptanceContract text op) t
        (fun db => F db ∧ Known t identity.externalAuthId uid db ∧ StillAt uid user db)
        (sql (.updateProfile uid user identity)) fun _ db => F db ∧ UserOf t identity uid db := by
      refine triple_sql stable nofun ?_
      rintro db a db' ⟨frame, ⟨none, row, here, known⟩, still⟩ - - executed
      obtain ⟨⟨r, db''⟩, written, same⟩ := Option.map_eq_some_iff.mp executed
      obtain ⟨T, updated, rfl⟩ := onUsers_eq written
      rcases Table.update_cases updated with ⟨rfl, rfl | ⟨rfl, -⟩⟩ | ⟨old, new, seen, changed, -, rfl, rfl⟩
      · cases same
      · cases same
      · cases same
        cases changed
        refine ⟨framed.users _ _ frame, (none.only uid).put _, ?_⟩
        rcases still with unchanged | member
        · obtain rfl : row = user := Option.some.inj (here.symm.trans unchanged)
          obtain rfl : row = old :=
            Option.some.inj (here.symm.trans ((none.view uid).symm.trans seen))
          exact .inl ⟨_, Table.view_put_same t uid _ _, known, by simp [User.flushProfile],
            by simp [User.flushProfile]⟩
        · exact .inr member
    refine Triple.handle_raise (.bind (updates.weaken (fun _ h => ⟨h.1, h.2.1, .inl h.2.2⟩)
      fun _ _ h => h) fun _ => .pure fun _ h => h) fun e => ?_
    split <;> exact ⟨_, rfl⟩

theorem getOrCreateCurrentUser_triple (framed : Framed text op t F) (newUserId : Uuid) :
    Triple (machine τ text) (acceptanceContract text op) t (fun db => F db ∧ db.users.HoldsNone t)
      (getOrCreateCurrentUser identity newUserId)
      fun out db => F db ∧ UserOf t identity out.1 db := by
  have noUser : (acceptanceContract text op).Stable t fun db => db.users.HoldsNone t :=
    fun db db' none moved _ => moved.stays.users.keeps.holdsNone none
  have reads : Triple (machine τ text) (acceptanceContract text op) t
      (fun db => F db ∧ db.users.HoldsNone t)
      (sql (.userByExternalAuthId identity.externalAuthId))
      fun out db => F db ∧ (out = none → Unclaimed t identity.externalAuthId db) ∧
        ∀ row, out = some row → Known t identity.externalAuthId row.1 db ∧
          db.users.committed row.1 = some row.2 := by
    refine triple_sql (framed.stable.and noUser) (by simp) ?_
    rintro db out db' ⟨frame, none⟩ - - executed
    obtain ⟨rfl, rfl⟩ := read_ok executed
    refine ⟨frame, fun missing => ⟨none, fun uid user here same => ?_⟩, ?_⟩
    · have passes := Table.selectOne_none missing ((none.view uid).trans here)
      simp [same] at passes
    · rintro ⟨uid, user⟩ found
      obtain ⟨seen, same⟩ := Table.selectOne_spec found
      rw [none.view] at seen
      exact ⟨⟨none, user, seen, by simpa using same⟩, seen⟩
  refine reads.bind fun out => ?_
  cases out with
  | none =>
      exact (createCurrentUser_triple framed newUserId).weaken (fun _ h => ⟨h.1, h.2.1 rfl⟩)
        fun _ _ h => h
  | some row =>
      exact (refreshCurrentUserProfile_triple framed row.1 row.2).weaken
        (fun _ h => ⟨h.1, h.2.2 row rfl⟩) fun _ _ h => h

end Provisioning

end Steps

end SaasTemplate.Tenancy
