import SaasTemplate.Tenancy.TenantContract

/-! # Provisioning users

Calls of `provision_current_user` side by side. There is one row for each external identity. A
call returns the claims of its own identity unless it loses the insert race to other claims,
which it then returns as they are, or flushes over columns that others have changed since.
-/

set_option linter.unusedSectionVars false

namespace SaasTemplate.Tenancy

open SaasTemplate.Isolation SaasTemplate.Isolation.Prog
open SaasTemplate.Outbox (written)

structure ProvisionCall where
  identity : AuthenticatedPrincipal
  newUserId : Uuid

/-- `provision_current_user`, on a session of its own. -/
def provisionCurrentUser (call : ProvisionCall) : Tx (Uuid × User) :=
  inTransaction (getOrCreateCurrentUser call.identity call.newUserId)

/-- The row shows the claims of the identity. -/
def HasProfile (identity : AuthenticatedPrincipal) (user : User) : Prop :=
  user.withProfile identity = user

instance (identity : AuthenticatedPrincipal) (user : User) : Decidable (HasProfile identity user) :=
  inferInstanceAs (Decidable (user.withProfile identity = user))

/-! ## Where a call is -/

section Positions

variable (call : ProvisionCall)

/-- The call has found no row. -/
def inserting : Tx (Uuid × User) := inTransaction (createCurrentUser call.identity call.newUserId)

/-- The insert of the call has failed on the unique index. -/
def rereading : Tx (Uuid × User) := inTransaction (do
  let existing ← sql (.userByExternalAuthId call.identity.externalAuthId)
  orRaise existing (.conflict "Unable to provision local user projection"))

/-- The call has found a row. -/
def refreshing (row : Uuid × User) : Tx (Uuid × User) :=
  inTransaction (refreshCurrentUserProfile row.1 row.2 call.identity)

/-- The call commits, and returns this row. -/
def returning (row : Uuid × User) : Tx (Uuid × User) := inTransaction (pure row)

/-- The call rolls back, and raises. -/
def raising (e : AppError) : Tx (Uuid × User) := inTransaction (raise e)

/-- The rest of a call, where the rows that it returns show its claims. -/
inductive Position : Tx (Uuid × User) → Prop where
  | start : Position (provisionCurrentUser call)
  | inserting : Position (inserting call)
  | rereading : Position (rereading call)
  | refreshing (row : Uuid × User) : Position (refreshing call row)
  | returning (row : Uuid × User) : HasProfile call.identity row.2 → Position (returning row)
  | raising (e : AppError) : Position (raising e)
  | returned (row : Uuid × User) : HasProfile call.identity row.2 → Position (.done (.ok row))
  | raised (e : AppError) : Position (.done (.error e))

end Positions

section Programs

variable {call : ProvisionCall} {s : Statement} {k : Except AppError (Answer s) → Tx (Uuid × User)}
  {row : Uuid × User}

theorem provisionCurrentUser_eq : provisionCurrentUser call =
    .call (.userByExternalAuthId call.identity.externalAuthId) fun
      | .ok none => inserting call
      | .ok (some row) => refreshing call row
      | .error e => raising e := by
  refine congrArg (Prog.call _) (funext fun r => ?_)
  match r with
  | .ok none | .ok (some _) | .error _ => rfl

theorem inserting_eq : inserting call =
    .call (.insertUser call.newUserId (.ofIdentity call.identity)) fun
      | .ok _ => returning (call.newUserId, .ofIdentity call.identity)
      | .error e => if e = .integrityError then rereading call else raising e := by
  refine congrArg (Prog.call _) (funext fun r => ?_)
  match r with
  | .ok _ => rfl
  | .error e => exact apply_ite inTransaction _ _ _

theorem rereading_eq : rereading call =
    .call (.userByExternalAuthId call.identity.externalAuthId) fun
      | .ok none => raising (.conflict "Unable to provision local user projection")
      | .ok (some row) => returning row
      | .error e => raising e := by
  refine congrArg (Prog.call _) (funext fun r => ?_)
  match r with
  | .ok none | .ok (some _) | .error _ => rfl

theorem refreshing_of_hasProfile (own : HasProfile call.identity row.2) :
    refreshing call row = returning row := by
  simp only [refreshing, refreshCurrentUserProfile, if_pos (show _ = _ from own), returning]

theorem refreshing_eq (other : ¬HasProfile call.identity row.2) : refreshing call row =
    .call (.updateProfile row.1 row.2 call.identity) fun
      | .ok user => returning (row.1, user)
      | .error e => raising
          (if e = .integrityError then .conflict "User profile conflicts with existing data"
          else e) := by
  rw [refreshing, refreshCurrentUserProfile, if_neg (show ¬_ = _ from other)]
  refine congrArg (Prog.call _) (funext fun r => ?_)
  match r with
  | .ok _ => rfl
  | .error e =>
      exact (apply_ite inTransaction _ _ _).trans (apply_ite raising _ _ _).symm

theorem returning_eq : returning row =
    .call .commit fun
      | .ok _ => .done (.ok row)
      | .error e => raising e := by
  refine congrArg (Prog.call _) (funext fun r => ?_)
  match r with
  | .ok _ | .error _ => rfl

theorem raising_eq {e : AppError} : raising e =
    .call .rollback fun
      | .ok _ => .done (.error e)
      | .error e' => .done (.error e') := by
  refine congrArg (Prog.call _) (funext fun r => ?_)
  match r with
  | .ok _ | .error _ => rfl

end Programs

/-! ## What the steps keep -/

/-- What a flush leaves as it is in `u`, the claims agree with. -/
structure KeepsRest (loaded : User) (identity : AuthenticatedPrincipal) (u : User) : Prop where
  email : loaded.email = identity.email → u.email = identity.email
  emailVerified : loaded.emailVerified = identity.emailVerified →
    u.emailVerified = identity.emailVerified
  firstName : loaded.firstName = identity.firstName → u.firstName = identity.firstName
  lastName : loaded.lastName = identity.lastName → u.lastName = identity.lastName

theorem written_eq {α : Type} [DecidableEq α] {loaded assigned current : α} :
    written loaded assigned current = assigned ↔ (loaded = assigned → current = assigned) := by
  unfold written
  split
  · rename_i same
    simp [same]
  · rename_i differ
    simp [Ne.symm differ]

theorem hasProfile_iff {identity : AuthenticatedPrincipal} {user : User} :
    HasProfile identity user ↔ user.email = identity.email ∧
      user.emailVerified = identity.emailVerified ∧ user.firstName = identity.firstName ∧
      user.lastName = identity.lastName := by
  cases user
  simp [HasProfile, User.withProfile, eq_comm]

/-- A flush shows the claims exactly if the columns that it does not write do. -/
theorem hasProfile_flushProfile {loaded u : User} {identity : AuthenticatedPrincipal} :
    HasProfile identity (loaded.flushProfile identity u) ↔ KeepsRest loaded identity u := by
  rw [hasProfile_iff]
  simp only [User.flushProfile, written_eq]
  exact ⟨fun h => ⟨h.1, h.2.1, h.2.2.1, h.2.2.2⟩, fun h => ⟨h.1, h.2, h.3, h.4⟩⟩

section Runs

variable {τ : Type} [DecidableEq τ] {text : TextOps}

/-- No call reads other claims after it has lost the race, or flushes around them. -/
structure Undisturbed (call : ProvisionCall) (t : τ)
    (c : Config τ Statement Answer AppError (Db τ) (Uuid × User)) : Prop where
  reread : c.run t = some (rereading call) → ∀ row,
    (c.db.users.selectOne t fun _ u => u.externalAuthId == call.identity.externalAuthId) =
      some row → HasProfile call.identity row.2
  flush : ∀ id loaded identity k, c.run t = some (.call (.updateProfile id loaded identity) k) →
    ∀ u, c.db.users.view t id = some u → KeepsRest loaded identity u

variable {call : ProvisionCall} {t : τ} {s : Statement} {db db' : Db τ}
  {k : Except AppError (Answer s) → Tx (Uuid × User)}

theorem Position.fails (here : Position call (.call s k)) (e : AppError) :
    Position call (k (.error e)) := by
  generalize same : Prog.call s k = p at here
  cases here with
  | start =>
      rw [provisionCurrentUser_eq] at same
      cases same
      exact .raising e
  | inserting =>
      rw [inserting_eq] at same
      cases same
      show Position call (if e = .integrityError then Tenancy.rereading call else Tenancy.raising e)
      split
      · exact .rereading
      · exact .raising e
  | rereading =>
      rw [rereading_eq] at same
      cases same
      exact .raising e
  | refreshing row =>
      by_cases own : HasProfile call.identity row.2
      · rw [refreshing_of_hasProfile own, returning_eq] at same
        cases same
        exact .raising e
      · rw [refreshing_eq own] at same
        cases same
        exact .raising _
  | returning row own =>
      rw [returning_eq] at same
      cases same
      exact .raising e
  | raising e' =>
      rw [raising_eq] at same
      cases same
      exact .raised e
  | returned | raised => cases same

/-- The row that a refresh returns. -/
theorem updateProfile_answer {id : Uuid} {loaded user : User} {identity : AuthenticatedPrincipal}
    (executed : (machine τ text).exec t (.updateProfile id loaded identity) db =
      some (.ok user, db')) :
    ∃ u, db.users.view t id = some u ∧ user = loaded.flushProfile identity u := by
  obtain ⟨⟨r, _⟩, updated, same⟩ := Option.map_eq_some_iff.mp executed
  obtain ⟨T, updated, -⟩ := onUsers_eq updated
  rcases Table.update_cases updated with ⟨-, rfl | ⟨rfl, -⟩⟩ | ⟨u, v, seen, changed, -, -, rfl⟩
  · cases same
  · cases same
  · cases changed
    cases same
    exact ⟨u, seen, rfl⟩

theorem Position.answers (here : Position call (.call s k)) {x : Answer s}
    (executed : (machine τ text).exec t s db = some (.ok x, db'))
    (reread : Prog.call s k = Tenancy.rereading call → ∀ row,
      (db.users.selectOne t fun _ u => u.externalAuthId == call.identity.externalAuthId) =
        some row → HasProfile call.identity row.2)
    (flush : ∀ id loaded, s = .updateProfile id loaded call.identity →
      ∀ u, db.users.view t id = some u → KeepsRest loaded call.identity u) :
    Position call (k (.ok x)) := by
  generalize same : Prog.call s k = p at here
  cases here with
  | start =>
      rw [provisionCurrentUser_eq] at same
      cases same
      match x with
      | none => exact .inserting
      | some row => exact .refreshing row
  | inserting =>
      rw [inserting_eq] at same
      cases same
      exact .returning _ rfl
  | rereading =>
      have shows := reread same
      rw [rereading_eq] at same
      cases same
      match x with
      | none => exact .raising _
      | some row => exact .returning row (shows row (read_ok executed).1)
  | refreshing row =>
      by_cases own : HasProfile call.identity row.2
      · rw [refreshing_of_hasProfile own, returning_eq] at same
        cases same
        exact .returned row own
      · rw [refreshing_eq own] at same
        cases same
        obtain ⟨u, seen, rfl⟩ := updateProfile_answer executed
        exact .returning _ (hasProfile_flushProfile.mpr (flush _ _ rfl u seen))
  | returning row own =>
      rw [returning_eq] at same
      cases same
      exact .returned row own
  | raising e' =>
      rw [raising_eq] at same
      cases same
      exact .raised e'
  | returned | raised => cases same

/-- Clients that are about to provision their users, on a committed database. -/
structure ProvisionStart (text : TextOps) (call : τ → ProvisionCall)
    (c : Config τ Statement Answer AppError (Db τ) (Uuid × User)) : Prop where
  atRest : c.db.AtRest text
  calls : ∀ t, c.run t = some (provisionCurrentUser (call t))

/-- A step of a run in which no call is disturbed. -/
abbrev UndisturbedStep (text : TextOps) (call : τ → ProvisionCall)
    (c d : Config τ Statement Answer AppError (Db τ) (Uuid × User)) : Prop :=
  (machine τ text).Step (fun t _ _ => Undisturbed (call t) t c) c d

/-- What holds along the run. -/
structure Provisioning (text : TextOps) (call : τ → ProvisionCall)
    (c : Config τ Statement Answer AppError (Db τ) (Uuid × User)) : Prop where
  lawful : c.db.Lawful text
  positions : ∀ t p, c.run t = some p → Position (call t) p

end Runs

section Runs

variable {τ : Type} [DecidableEq τ] {text : TextOps} {call : τ → ProvisionCall}
  {start c d : Config τ Statement Answer AppError (Db τ) (Uuid × User)}

theorem ProvisionStart.provisioning (h : ProvisionStart text call c) :
    Provisioning text call c where
  lawful := h.atRest.lawful
  positions t _ running := Option.some.inj ((h.calls t).symm.trans running) ▸ .start

theorem Provisioning.step (h : Provisioning text call c) (step : UndisturbedStep text call c d) :
    Provisioning text call d := by
  have moved : ∀ {t rest db'}, (∀ p, rest = some p → Position (call t) p) →
      db'.Lawful text → Provisioning text call ⟨db', Function.update c.run t rest⟩ := by
    intro t rest db' position lawful
    refine ⟨lawful, fun u p running => ?_⟩
    by_cases same : u = t
    · subst same
      exact position p (by simpa using running)
    · exact h.positions u p (by simpa [Function.update_of_ne same] using running)
  cases step with
  | @exec t s k r db' running undisturbed executed =>
      refine moved (fun p is => ?_) ((exec_case h.lawful executed).lawful h.lawful).1
      cases is
      have here := h.positions t _ running
      cases r with
      | error e => exact here.fails e
      | ok x =>
          refine here.answers executed
            (fun same => undisturbed.reread (running.trans (same ▸ rfl))) ?_
          rintro id loaded rfl
          exact undisturbed.flush id loaded _ k running
  | @fault t s k e running =>
      exact moved (fun _ is => Option.some.inj is ▸ (h.positions t _ running).fails e) h.lawful
  | crash running => exact moved nofun (rollback_lawful h.lawful).1
  | env ticks =>
      obtain ⟨clock, rfl⟩ := ticks
      exact ⟨⟨h.lawful.users, h.lawful.organisations, h.lawful.memberships, h.lawful.invites⟩,
        h.positions⟩

theorem Provisioning.run (h : Provisioning text call start)
    (run : Relation.ReflTransGen (UndisturbedStep text call) start c) :
    Provisioning text call c := by
  induction run with
  | refl => exact h
  | tail _ step ih => exact ih.step step

theorem Provisioning.unique (h : Provisioning text call c) {k k' : Uuid} {u u' : User}
    (here : c.db.users.committed k = some u) (there : c.db.users.committed k' = some u')
    (same : u.externalAuthId = u'.externalAuthId) : k = k' := by
  by_contra differ
  refine h.lawful.users.unique.committed differ ⟨u, u', .externalAuthId u.externalAuthId, here,
    there, ?_, ?_⟩
  · simp [User.entries]
  · simp [User.entries, same]

theorem Provisioning.result (h : Provisioning text call c) {t : τ} {row : Uuid × User}
    (returned : c.result t = some (.ok row)) : HasProfile (call t).identity row.2 := by
  have here := h.positions t _ (Config.run_of_result returned)
  generalize same : Prog.done (Except.ok row) = p at here
  cases here with
  | start => exact absurd same (provisionCurrentUser_eq ▸ nofun)
  | inserting => exact absurd same (inserting_eq ▸ nofun)
  | rereading => exact absurd same (rereading_eq ▸ nofun)
  | refreshing row' =>
      by_cases own : HasProfile (call t).identity row'.2
      · exact absurd same (refreshing_of_hasProfile own ▸ returning_eq ▸ nofun)
      · exact absurd same (refreshing_eq own ▸ nofun)
  | returning row' => exact absurd same (returning_eq ▸ nofun)
  | raising e => exact absurd same (raising_eq ▸ nofun)
  | returned row' own =>
      cases same
      exact own
  | raised e => cases same

/-- The call of `t` has not begun. -/
def restarted (call : τ → ProvisionCall) (t : τ)
    (c : Config τ Statement Answer AppError (Db τ) (Uuid × User)) :
    Config τ Statement Answer AppError (Db τ) (Uuid × User) :=
  ⟨c.db, Function.update c.run t (some (provisionCurrentUser (call t)))⟩

/-- A call that rereads the row of the winner goes on as if it had only now begun. -/
theorem Provisioning.lost (h : Provisioning text call c) {t : τ} {k : Uuid} {u : User}
    (lost : c.run t = some (rereading (call t))) (winner : c.db.users.committed k = some u)
    (same : u.externalAuthId = (call t).identity.externalAuthId)
    (step : UndisturbedStep text call c d) (moved : d.run t ≠ c.run t) :
    (machine τ text).Step (fun _ _ _ => True) (restarted call t c) d := by
  have anew : (restarted call t c).run t = some (provisionCurrentUser (call t)) := by
    simp [restarted]
  have again : ∀ rest, Function.update (restarted call t c).run t rest =
      Function.update c.run t rest := fun rest => by simp [restarted]
  have own : ∀ {u s k}, c.run u = some (.call s k) → ∀ rest,
      Function.update c.run u rest t ≠ c.run t → u = t := by
    intro u s k _ rest differs
    by_contra other
    exact differs (Function.update_of_ne (Ne.symm other) _ _)
  rw [provisionCurrentUser_eq] at anew
  cases step with
  | @exec v s j r db' running undisturbed executed =>
      obtain rfl := own running _ moved
      obtain ⟨row, found⟩ : ∃ row, (c.db.users.selectOne v fun _ u =>
          u.externalAuthId == (call v).identity.externalAuthId) = some row := by
        obtain ⟨u', seen, kept⟩ := h.lawful.users.follows.view v k u winner
        exact Option.isSome_iff_exists.mp
          (Table.selectOne_isSome seen (beq_iff_eq.mpr (kept.trans same)))
      have shows := undisturbed.reread lost row found
      have next := running.symm.trans lost
      rw [rereading_eq] at next
      cases Option.some.inj next
      have answered : (machine τ text).exec v
          (.userByExternalAuthId (call v).identity.externalAuthId) c.db =
            some (.ok (some row), c.db) := by
        rw [← found]
        rfl
      cases Option.some.inj (answered.symm.trans executed)
      have here : (machine τ text).Step (fun _ _ _ => True) (restarted call v c) _ :=
        .exec anew trivial answered
      rw [again] at here
      show (machine τ text).Step _ _ ⟨c.db, Function.update c.run v (some (returning row))⟩
      rw [← @refreshing_of_hasProfile (call v) row shows]
      exact here
  | @fault v s j e running fallible =>
      obtain rfl := own running _ moved
      have next := running.symm.trans lost
      rw [rereading_eq] at next
      cases Option.some.inj next
      have here : (machine τ text).Step (fun _ _ _ => True) (restarted call v c) _ :=
        .fault e anew fallible
      rwa [again] at here
  | @crash v s j running =>
      obtain rfl := own running _ moved
      have here : (machine τ text).Step (fun _ _ _ => True) (restarted call v c) _ := .crash anew
      rwa [again] at here
  | env => exact absurd rfl moved

/-- As long as no call that has lost the race rereads other claims, and none is flushed over
    columns that no longer show its own: there is one row for each external identity, what a
    call returns shows its claims, and a call that has lost the race goes on as if it had
    begun after the winner. -/
theorem user_provisioning (h : ProvisionStart text call start)
    (run : Relation.ReflTransGen (UndisturbedStep text call) start c) :
    (∀ k k' u u', c.db.users.committed k = some u → c.db.users.committed k' = some u' →
      u.externalAuthId = u'.externalAuthId → k = k') ∧
    (∀ t row, c.result t = some (.ok row) → HasProfile (call t).identity row.2) ∧
    ∀ t k u d, c.run t = some (rereading (call t)) → c.db.users.committed k = some u →
      u.externalAuthId = (call t).identity.externalAuthId → UndisturbedStep text call c d →
      d.run t ≠ c.run t → (machine τ text).Step (fun _ _ _ => True) (restarted call t c) d :=
  have here := h.provisioning.run run
  ⟨fun _ _ _ _ => here.unique, fun _ _ => here.result, fun _ _ _ _ => here.lost⟩

end Runs

/-! ## Two calls -/

/-- The claims of one external identity at two times. -/
def claims (email firstName : String) : AuthenticatedPrincipal :=
  ⟨"sub", some email, true, some firstName, none⟩

def twoCalls (first second : AuthenticatedPrincipal) : Bool → ProvisionCall
  | false => ⟨first, 100⟩
  | true => ⟨second, 101⟩

def twoCallsStart (users : List (Uuid × User)) (call : Bool → ProvisionCall) :
    Config Bool Statement Answer AppError (Db Bool) (Uuid × User) :=
  ⟨⟨.ofRows users, .ofRows [], .ofRows [], .ofRows [], 0⟩,
    fun t => some (provisionCurrentUser (call t))⟩

/-- Every row that a statement finds shows the claims of its call, and nothing is flushed. -/
def calm (call : Bool → ProvisionCall) (t : Bool) (s : Statement) (db : Db Bool) : Bool :=
  match s with
  | .userByExternalAuthId externalAuthId =>
      (db.users.selectOne t fun _ u => u.externalAuthId == externalAuthId).all fun row =>
        decide (HasProfile (call t).identity row.2)
  | .updateProfile _ _ _ => false
  | _ => true

theorem undisturbedStep_of_calm {call : Bool → ProvisionCall}
    {c d : Config Bool Statement Answer AppError (Db Bool) (Uuid × User)}
    (step : (machine Bool plainText).Step (fun t s db => calm call t s db = true) c d) :
    UndisturbedStep plainText call c d := by
  cases step with
  | @exec t s k r db' running passed executed =>
      refine .exec running ⟨fun lost row found => ?_, fun id loaded identity k' is => ?_⟩ executed
      · have same := running.symm.trans lost
        rw [rereading_eq] at same
        cases Option.some.inj same
        simpa [calm, found] using passed
      · cases Option.some.inj (running.symm.trans is)
        simp [calm] at passed
  | fault e running fallible => exact .fault e running fallible
  | crash running => exact .crash running
  | env ticks => exact .env ticks

/-- How the calls have ended. -/
def provisioned (c : Config Bool Statement Answer AppError (Db Bool) (Uuid × User)) :
    List (Option (Except AppError (Uuid × User))) :=
  [c.result false, c.result true]

/-- Two calls with the same claims insert at once, and both return them. -/
theorem user_provisioning_example :
    ∃ d : Config Bool Statement Answer AppError (Db Bool) (Uuid × User),
      d.result true = some (.ok (100, .ofIdentity (claims "a@b.c" "Ann"))) ∧
      ∀ t row, d.result t = some (.ok row) →
        HasProfile (twoCalls (claims "a@b.c" "Ann") (claims "a@b.c" "Ann") t).identity row.2 := by
  let call := twoCalls (claims "a@b.c" "Ann") (claims "a@b.c" "Ann")
  have played : ((machine Bool plainText).play (calm call)
      [false, true, false, false, true, true, true] (twoCallsStart [] call)).map provisioned =
        some [some (.ok (100, .ofIdentity (claims "a@b.c" "Ann"))),
          some (.ok (100, .ofIdentity (claims "a@b.c" "Ann")))] := by decide
  obtain ⟨d, run, seen⟩ := Machine.run_of_play (fun _ _ _ passed => passed) played
  have starts : ProvisionStart plainText call (twoCallsStart [] call) :=
    ⟨⟨Table.atRest_ofRows (by decide), Table.atRest_ofRows (by decide),
      Table.atRest_ofRows (by decide), Table.atRest_ofRows (by decide)⟩, fun _ => rfl⟩
  have holds := user_provisioning starts
    (Relation.ReflTransGen.mono (fun _ _ => undisturbedStep_of_calm) _ _ run)
  exact ⟨d, (List.cons.inj (List.cons.inj seen).2).1, holds.2.1⟩

/-- The second call loses the race to other claims, and returns them. -/
theorem lost_race_returns_other_claims :
    ¬∀ (call : Bool → ProvisionCall)
      (start c : Config Bool Statement Answer AppError (Db Bool) (Uuid × User)),
      ProvisionStart plainText call start →
      (machine Bool plainText).Reaches (fun _ _ _ => True) start c →
      ∀ t row, c.result t = some (.ok row) → HasProfile (call t).identity row.2 := by
  intro claim
  let call := twoCalls (claims "old@b.c" "Ann") (claims "new@b.c" "Ann")
  have played : ((machine Bool plainText).play (fun _ _ _ => true)
      [false, true, false, false, true, true, true] (twoCallsStart [] call)).map provisioned =
        some [some (.ok (100, .ofIdentity (claims "old@b.c" "Ann"))),
          some (.ok (100, .ofIdentity (claims "old@b.c" "Ann")))] := by decide
  obtain ⟨d, run, seen⟩ := Machine.run_of_play (fun _ _ _ _ => trivial) played
  have starts : ProvisionStart plainText call (twoCallsStart [] call) :=
    ⟨⟨Table.atRest_ofRows (by decide), Table.atRest_ofRows (by decide),
      Table.atRest_ofRows (by decide), Table.atRest_ofRows (by decide)⟩, fun _ => rfl⟩
  have returned := (List.cons.inj (List.cons.inj seen).2).1
  exact absurd (claim call _ d starts run true _ returned) (by decide)

/-- The second call changes the first name between the read of the first call and its flush,
    which writes the email only: the first call returns claims that neither call had. -/
theorem flush_mixes_claims :
    ∃ d : Config Bool Statement Answer AppError (Db Bool) (Uuid × User),
      (machine Bool plainText).Reaches (fun _ _ _ => True)
        (twoCallsStart [(100, .ofIdentity (claims "old@b.c" "Ann"))]
          (twoCalls (claims "new@b.c" "Ann") (claims "old@b.c" "Anna"))) d ∧
      d.result false = some (.ok (100, .ofIdentity (claims "new@b.c" "Anna"))) := by
  have played : ((machine Bool plainText).play (fun _ _ _ => true)
      [false, true, true, true, false, false]
      (twoCallsStart [(100, .ofIdentity (claims "old@b.c" "Ann"))]
        (twoCalls (claims "new@b.c" "Ann") (claims "old@b.c" "Anna")))).map provisioned =
        some [some (.ok (100, .ofIdentity (claims "new@b.c" "Anna"))),
          some (.ok (100, .ofIdentity (claims "old@b.c" "Anna")))] := by decide
  obtain ⟨d, run, seen⟩ := Machine.run_of_play (fun _ _ _ _ => trivial) played
  exact ⟨d, run, (List.cons.inj seen).1⟩

end SaasTemplate.Tenancy
