import SaasTemplate.Outbox.StateMachine

/-! # Who may delete a delivery claim

The row of a delivery claim is what keeps a second worker away from an event. If nobody but
the worker who inserted it deletes it, and only together with an outcome, then the worker
that delivers is the only one that ever does.
-/

set_option linter.unusedSectionVars false

namespace SaasTemplate.Outbox

open SaasTemplate.Isolation SaasTemplate.Isolation.Prog

variable {τ : Type} [DecidableEq τ] {text : TextOps} {tokenOf : τ → Option String} {t : τ}
  {s : Statement} {db db' : Db τ} {α : Type}

/-- Who holds the row of a claim works under it: the claim that is committed there and the
    one that is being inserted carry its token. -/
structure ClaimsOwned (tokenOf : τ → Option String) (db : Db τ) : Prop where
  committed : ∀ {id u claim}, db.claims.holder id = some u → db.claims.committed id = some claim →
    tokenOf u = some claim.claimToken
  pending : ∀ {id u claim}, db.claims.holder id = some u → db.claims.pending id = some claim →
    tokenOf u = some claim.claimToken

/-- A step of `t` leaves the claims of the others alone. -/
structure ClaimMoves (tokenOf : τ → Option String) (t : τ) (db db' : Db τ) : Prop where
  events : Table.Respects t db.events db'.events
  claims : Table.Respects t db.claims db'.claims
  foreign : ∀ {id claim}, db.claims.committed id = some claim →
    tokenOf t ≠ some claim.claimToken → db'.claims.committed id = some claim

structure ClaimStays (tokenOf : τ → Option String) (t : τ) (db db' : Db τ) : Prop where
  events : Table.Keeps t db.events db'.events
  claims : Table.Keeps t db.claims db'.claims
  own : ∀ {id claim}, db.claims.committed id = some claim →
    tokenOf t = some claim.claimToken → db'.claims.committed id = some claim

/-- Claims are inserted with the client's token, and deleted by it only. -/
def ClaimNeeds (tokenOf : τ → Option String) (t : τ) : Statement → Db τ → Prop
  | .insertDeliveryClaim _ claim, _ => tokenOf t = some claim.claimToken
  | .clearDeliveryClaim id, db => ∀ claim, db.claims.committed id = some claim →
      tokenOf t = some claim.claimToken
  | _, _ => True

/-- A step of `t` on the events. -/
theorem ClaimsOwned.putEvent (h : ClaimsOwned tokenOf db) {id : Uuid} {e : Option OutboxEvent}
    (free : db.events.free t id = true) :
    ClaimsOwned tokenOf { db with events := db.events.put t id e } ∧
      ClaimMoves tokenOf t db { db with events := db.events.put t id e } :=
  ⟨⟨h.committed, h.pending⟩, Table.respects_put free, .refl t _, fun here _ => here⟩

/-- A step of `t` on a claim that is its own, or of which there is none. -/
theorem ClaimsOwned.putClaim (h : ClaimsOwned tokenOf db) {id : Uuid}
    {row : Option OutboxDeliveryClaim} (free : db.claims.free t id = true)
    (committed : ∀ claim, db.claims.committed id = some claim →
      tokenOf t = some claim.claimToken)
    (pending : ∀ claim, row = some claim → tokenOf t = some claim.claimToken) :
    ClaimsOwned tokenOf { db with claims := db.claims.put t id row } ∧
      ClaimMoves tokenOf t db { db with claims := db.claims.put t id row } := by
  refine ⟨⟨?_, ?_⟩, .refl t _, Table.respects_put free, fun here _ => by simpa using here⟩
  · intro j u claim held here
    simp only [Table.committed_put] at here
    by_cases same : j = id
    · subst same
      simp only [Table.holder_put_same, Option.some.injEq] at held
      exact held ▸ committed claim here
    · exact h.committed (by simpa [Table.holder_put_other same] using held) here
  · intro j u claim held here
    by_cases same : j = id
    · subst same
      simp only [Table.holder_put_same, Option.some.injEq] at held
      exact held ▸ pending claim (by simpa using here)
    · exact h.pending (by simpa [Table.holder_put_other same] using held)
        (by simpa [Table.pending_put_other same] using here)

theorem ClaimsOwned.commit (h : ClaimsOwned tokenOf db) (t : τ) :
    ClaimsOwned tokenOf (db.commit t) ∧ ClaimMoves tokenOf t db (db.commit t) := by
  refine ⟨⟨?_, ?_⟩, Table.respects_commit t _, Table.respects_commit t _, ?_⟩
  · intro id u claim held here
    obtain ⟨before, other⟩ := Table.holder_commit_eq_some held
    have same := Table.cell_commit_of_not_held other
    exact h.committed before ((Table.committed_of_cell same).symm.trans here)
  · intro id u claim held here
    obtain ⟨before, other⟩ := Table.holder_commit_eq_some held
    have same := Table.cell_commit_of_not_held other
    exact h.pending before ((Table.pending_of_cell same).symm.trans here)
  · intro id claim here foreign
    by_cases mine : db.claims.holder id = some t
    · exact absurd (h.committed mine here) foreign
    · exact (Table.committed_of_cell (Table.cell_commit_of_not_held mine)).trans here

theorem ClaimsOwned.rollback (h : ClaimsOwned tokenOf db) (t : τ) :
    ClaimsOwned tokenOf (db.rollback t) ∧ ClaimMoves tokenOf t db (db.rollback t) := by
  refine ⟨⟨?_, ?_⟩, Table.respects_rollback t _, Table.respects_rollback t _,
    fun here _ => by simpa [Db.rollback] using here⟩
  · intro id u claim held here
    obtain ⟨before, other⟩ := Table.holder_rollback_eq_some held
    exact h.committed before (by simpa [Db.rollback] using here)
  · intro id u claim held here
    obtain ⟨before, other⟩ := Table.holder_rollback_eq_some held
    have same := Table.cell_rollback_of_not_held other
    exact h.pending before ((Table.pending_of_cell same).symm.trans here)

theorem Case.claimsOwned (case : Case t s db db') (h : ClaimsOwned tokenOf db)
    (needs : ClaimNeeds tokenOf t s db) :
    ClaimsOwned tokenOf db' ∧ ClaimMoves tokenOf t db db' ∧
      (s ≠ .commit → ∀ id, db'.claims.committed id = db.claims.committed id) := by
  have split {next : Db τ} (both : ClaimsOwned tokenOf next ∧ ClaimMoves tokenOf t db next)
      (same : ∀ id, next.claims.committed id = db.claims.committed id) :
      ClaimsOwned tokenOf next ∧ ClaimMoves tokenOf t db next ∧
        (s ≠ .commit → ∀ id, next.claims.committed id = db.claims.committed id) :=
    ⟨both.1, both.2, fun _ => same⟩
  cases case with
  | quiet invites _ =>
      exact split ⟨⟨h.committed, h.pending⟩, .refl t _, .refl t _, fun here _ => here⟩ fun _ => rfl
  | insertEvent id event _ _ free => exact split (h.putEvent free) fun _ => rfl
  | lockEvent id event _ _ free => exact split (h.putEvent free) fun _ => rfl
  | flushEvent writer id loaded assigned current _ _ _ free =>
      exact split (h.putEvent free) fun _ => rfl
  | insertDeliveryClaim id claim is fresh free =>
      subst is
      refine split (h.putClaim free ?_ fun other is => Option.some.inj is ▸ needs) fun _ => by simp
      intro other here
      by_cases mine : db.claims.holder id = some t
      · exact h.committed mine here
      · rw [Table.view_of_not_held mine, here] at fresh
        cases fresh
  | clearDeliveryClaim id claim is seen free =>
      subst is
      exact split (h.putClaim free needs nofun) fun _ => by simp
  | commit is => exact ⟨(h.commit t).1, (h.commit t).2, fun open_ => absurd is open_⟩
  | rollback is => exact split (h.rollback t) fun id => by simp [Db.rollback]

/-- The outbox as seen by those who rely on their delivery claims. -/
def claimDiscipline (text : TextOps) (tokenOf : τ → Option String)
    (distinct : ∀ t u token, tokenOf t = some token → tokenOf u = some token → t = u) :
    Discipline (machine τ text) .commit .rollback where
  inv := ClaimsOwned tokenOf
  moves := ClaimMoves tokenOf
  stays := ClaimStays tokenOf
  unchanged db db' := ∀ id, db'.claims.committed id = db.claims.committed id
  needs := ClaimNeeds tokenOf
  stays_refl t db := ⟨.refl t _, .refl t _, fun here _ => here⟩
  stays_trans first second :=
    ⟨first.events.trans second.events, first.claims.trans second.claims,
      fun here own => second.own (first.own here own) own⟩
  stays_of_moves other moved :=
    ⟨moved.events.keeps other, moved.claims.keeps other, fun here own =>
      moved.foreign here fun mine => other (distinct _ _ _ own mine)⟩
  exec h needs executed := (exec_case executed).claimsOwned h needs
  crash {t} _ h := (Case.rollback (s := .rollback) rfl).claimsOwned h (t := t) trivial |>.imp_right
    fun out => ⟨out.1, out.2 nofun⟩
  env := by
    rintro db db' h ⟨clock, invites, rfl⟩
    exact ⟨⟨h.committed, h.pending⟩, fun t => ⟨.refl t _, .refl t _, fun here _ => here⟩,
      fun _ => rfl⟩
  unchanged_refl _ _ := rfl
  differ := rollback_ne_commit
  rollback_needs _ _ := trivial
  rollback_ok := rollback_ok
  certain := rollback_certain τ text

/-! ## What is shown before a statement -/

/-- Who is no worker deletes no committed delivery claim. -/
def onlyWorkersClear (tokenOf : τ → Option String) (t : τ) (s : Statement) (db : Db τ) : Bool :=
  match s with
  | .clearDeliveryClaim id => (tokenOf t).isSome || (db.claims.committed id).isNone
  | _ => true

/-- Writes that follow a plain read hit the event they were meant for, and a delivery claim
    is deleted by a worker only. -/
def ClaimsRespected (tokenOf : τ → Option String) (t : τ) (s : Statement) (db : Db τ) : Prop :=
  OutcomeIsCurrent t s db ∧ onlyWorkersClear tokenOf t s db = true

/-- A worker delivers under its committed claim, outside of any transaction; and a claim goes
    away only in a commit that takes its event out of processing. -/
structure DeliveryShown (tokenOf : τ → Option String) (t : τ) (s : Statement) (db : Db τ) :
    Prop where
  needs : ClaimsRespected tokenOf t s db → ClaimNeeds tokenOf t s db
  deliver : ∀ id invite rawToken, s = .deliver id invite rawToken →
    (∃ claim, db.claims.committed id = some claim ∧ tokenOf t = some claim.claimToken) ∧
      db.events.holder id ≠ some t
  commit : s = .commit → ∀ id claim, db.claims.holder id = some t →
    db.claims.committed id = some claim →
      ∃ e, db.events.holder id = some t ∧ db.events.pending id = some e ∧ e.status ≠ .processing

section Operations

variable {distinct : ∀ t u token, tokenOf t = some token → tokenOf u = some token → t = u}

def deliveryTerms (text : TextOps) (tokenOf : τ → Option String)
    (distinct : ∀ t u token, tokenOf t = some token → tokenOf u = some token → t = u) :
    Terms (claimDiscipline text tokenOf distinct) where
  promise _ _ _ := True
  allowed := ClaimsRespected tokenOf
  shows := DeliveryShown tokenOf
  unbroken _ _ _ _ := trivial
  enough _ ok shown := shown.needs ok
  rollback_shows _ _ := ⟨fun _ => trivial, fun _ _ _ is => (nomatch is), nofun⟩

abbrev deliveryContract (text : TextOps) (tokenOf : τ → Option String)
    (distinct : ∀ t u token, tokenOf t = some token → tokenOf u = some token → t = u) :
    Contract τ Statement (Db τ) := (deliveryTerms text tokenOf distinct).contract

/-- A statement that neither touches a claim nor ends a transaction nor delivers. -/
def Statement.isPlain : Statement → Bool
  | .insertDeliveryClaim _ _ | .clearDeliveryClaim _ | .deliver _ _ _ | .commit | .rollback => false
  | _ => true

theorem shown_of_isPlain (h : s.isPlain = true) (db : Db τ) : DeliveryShown tokenOf t s db := by
  refine ⟨fun _ => ?_, ?_, ?_⟩
  · cases s <;> trivial
  · rintro id invite rawToken rfl
    cases h
  · rintro rfl
    cases h

theorem Case.claims_of_isPlain (case : Case t s db db') (h : s.isPlain = true) :
    db'.claims = db.claims := by
  cases case with
  | quiet | insertEvent | lockEvent | flushEvent => rfl
  | insertDeliveryClaim _ _ is => simp [is, Statement.isPlain] at h
  | clearDeliveryClaim _ _ is => simp [is, Statement.isPlain] at h
  | commit is => simp [is, Statement.isPlain] at h
  | rollback is => simp [is, Statement.isPlain] at h

/-! ### Clients that are no workers -/

/-- What a client that is no worker does. -/
def Statement.isUnclaiming : Statement → Bool
  | .insertDeliveryClaim _ _ | .deliver _ _ _ => false
  | _ => true

/-- Such a client holds no claim, so it may do anything but insert one and deliver. -/
theorem unclaiming_shown (noWorker : tokenOf t = none) (h : s.isUnclaiming = true)
    (owned : ClaimsOwned tokenOf db) : DeliveryShown tokenOf t s db := by
  refine ⟨?_, ?_, ?_⟩
  · rintro ⟨-, spared⟩
    cases s with
    | insertDeliveryClaim => cases h
    | clearDeliveryClaim id =>
        intro claim here
        simp [onlyWorkersClear, noWorker, here] at spared
    | _ => trivial
  · rintro id invite rawToken rfl
    cases h
  · intro _ id claim held here
    simp [owned.committed held here] at noWorker

theorem unclaiming_wp {p : Tx α} (noWorker : tokenOf t = none)
    (only : p.Only (·.isUnclaiming = true)) :
    wp (machine τ text) (deliveryContract text tokenOf distinct) t p (fun _ _ => True) db := by
  refine wp_of_only (A := fun _ => True) (fun _ _ _ _ _ => trivial)
    (fun s db inside _ owned => unclaiming_shown noWorker inside owned) ?_ only trivial
  intro s db r db' inside _ owned permitted executed
  obtain ⟨kept, moved, -⟩ := (claimDiscipline text tokenOf distinct).exec owned
    ((unclaiming_shown noWorker inside owned).needs permitted) executed
  exact ⟨kept, ⟨moved, trivial⟩, trivial⟩

theorem only_inTransaction {body : Tx α} (only : body.Only (·.isUnclaiming = true)) :
    (inTransaction body).Only (·.isUnclaiming = true) :=
  only_transaction only ⟨rfl, rfl⟩

theorem only_sql (h : s.isUnclaiming = true) : (sql s).Only (·.isUnclaiming = true) :=
  only_stmt.mpr h

theorem lockEvents_only {limit : Nat} {ids : List Uuid} {lock : Uuid → Tx (Option OutboxEvent)}
    (locks : ∀ id, (lock id).Only (·.isUnclaiming = true)) :
    (lockEvents limit ids lock).Only (·.isUnclaiming = true) := by
  unfold lockEvents
  induction ids generalizing limit with
  | nil => trivial
  | cons id rest ih =>
      unfold collectUpTo
      split
      · trivial
      · exact only_bind (only_bind (locks id) fun _ => trivial) fun _ =>
          only_bind ih fun _ => trivial

theorem reportOutcome_only {writer : Writer} {id : Uuid} {event : OutboxEvent}
    {outcome : Time → OutboxEvent} :
    (reportOutcome writer id event outcome).Only (·.isUnclaiming = true) :=
  only_bind (only_sql rfl) fun _ => only_bind (only_sql rfl) fun _ => only_sql rfl

theorem OutboxOp.program_only (op : OutboxOp) (noWorker : op.claimToken = none) :
    (op.program text).Only (·.isUnclaiming = true) := by
  cases op with
  | publish request =>
      refine only_bind (only_inTransaction ?_) fun _ => trivial
      exact only_bind (only_sql rfl) fun _ => only_bind (only_sql rfl) fun _ =>
        only_bind (only_sql rfl) fun _ => only_sql rfl
  | dispatch limit send =>
      refine only_bind (only_bind (only_inTransaction ?_) fun claimed => only_bind
        (only_collect fun row _ => ?_) fun _ => trivial) fun _ => trivial
      · refine only_bind (only_sql rfl) fun now => only_bind (only_sql rfl) fun ids => ?_
        refine only_bind (lockEvents_only fun _ => only_sql rfl) fun claimed => ?_
        exact only_bind (only_forEach fun _ _ => only_sql rfl) fun _ =>
          only_bind (only_forEach fun _ _ => only_sql rfl) fun _ => trivial
      · split
        · trivial
        · refine only_bind (only_inTransaction (only_bind (only_sql rfl) fun found => ?_))
            fun _ => trivial
          cases found with
          | none => trivial
          | some event =>
              change (releaseProcessingEventForRetry _ _ _).Only _
              unfold releaseProcessingEventForRetry
              split
              · trivial
              · exact reportOutcome_only
  | work id claimToken ops => cases noWorker
  | recover staleTimeout limit =>
      refine only_bind (only_bind (only_inTransaction ?_) fun _ => trivial) fun _ => trivial
      refine only_bind (only_sql rfl) fun now => only_bind (only_sql rfl) fun ids => ?_
      refine only_bind (lockEvents_only fun _ => only_sql rfl) fun stale => ?_
      exact only_bind (only_forEach fun _ _ => reportOutcome_only) fun _ => trivial

/-! ### Workers -/

/-- Between its transactions a client holds no lock. -/
structure Idle (t : τ) (db : Db τ) : Prop where
  events : Table.HoldsNone t db.events
  claims : Table.HoldsNone t db.claims

/-- The claim of event `id` that is committed is the client's own. -/
def OwnsClaim (tokenOf : τ → Option String) (t : τ) (id : Uuid)
    (claims : Table Uuid τ OutboxDeliveryClaim) : Prop :=
  ∃ claim, claims.committed id = some claim ∧ tokenOf t = some claim.claimToken

/-- `t` has inserted a claim where none was committed, and touched no other. -/
structure ClaimPrepared (tokenOf : τ → Option String) (t : τ) (id : Uuid)
    (claims : Table Uuid τ OutboxDeliveryClaim) : Prop where
  only : Table.HoldsOnly t id claims
  held : claims.holder id = some t
  fresh : claims.committed id = none
  own : ∃ claim, claims.pending id = some claim ∧ tokenOf t = some claim.claimToken

/-- `t` takes the event out of processing, and holds at most its claim. -/
structure OutcomePrepared (t : τ) (id : Uuid) (db : Db τ) : Prop where
  only : Table.HoldsOnly t id db.claims
  held : db.events.holder id = some t
  reported : ∃ e, db.events.pending id = some e ∧ e.status ≠ .processing

theorem idle_stable : (deliveryContract text tokenOf distinct).Stable t (Idle t) :=
  fun _ _ h moved _ =>
    ⟨moved.stays.events.holdsNone h.events, moved.stays.claims.holdsNone h.claims⟩

theorem ownsClaim_stable {id : Uuid} :
    (deliveryContract text tokenOf distinct).Stable t fun db => OwnsClaim tokenOf t id db.claims := by
  rintro db db' ⟨claim, here, own⟩ moved -
  exact ⟨claim, moved.stays.own here own, own⟩

theorem holdsNone_stable :
    (deliveryContract text tokenOf distinct).Stable t fun db => Table.HoldsNone t db.claims :=
  fun _ _ h moved _ => moved.stays.claims.holdsNone h

theorem holdsOnly_stable {id : Uuid} :
    (deliveryContract text tokenOf distinct).Stable t fun db => Table.HoldsOnly t id db.claims :=
  fun _ _ h moved _ => moved.stays.claims.holdsOnly h

theorem claimPrepared_stable {id : Uuid} : (deliveryContract text tokenOf distinct).Stable t
    fun db => ClaimPrepared tokenOf t id db.claims := by
  rintro db db' ⟨only, held, fresh, own⟩ moved -
  have same := moved.stays.claims.cell held
  exact ⟨moved.stays.claims.holdsOnly only, (Table.holder_of_cell same).trans held,
    (Table.committed_of_cell same).trans fresh, by rwa [Table.pending_of_cell same]⟩

theorem outcomePrepared_stable {id : Uuid} :
    (deliveryContract text tokenOf distinct).Stable t (OutcomePrepared t id) := by
  rintro db db' ⟨only, held, reported⟩ moved -
  have same := moved.stays.events.cell held
  exact ⟨moved.stays.claims.holdsOnly only, (Table.holder_of_cell same).trans held,
    by rwa [Table.pending_of_cell same]⟩

/-- Plain statements keep what is known about the claims. -/
theorem triple_plain {A : Table Uuid τ OutboxDeliveryClaim → Prop} {body : Tx α}
    (stable : (deliveryContract text tokenOf distinct).Stable t fun db => A db.claims)
    (only : body.Only (·.isPlain = true)) :
    Triple (machine τ text) (deliveryContract text tokenOf distinct) t (fun db => A db.claims)
      body fun _ db => A db.claims := by
  refine Terms.triple_only stable nofun (fun s db plain _ _ => shown_of_isPlain plain db) ?_ only
  intro s db r db' plain held _ _ executed
  rw [(exec_case executed).claims_of_isPlain plain]
  exact held

theorem only_plain (h : s.isPlain = true) : (sql s).Only (·.isPlain = true) := only_stmt.mpr h

/-- The claim of a worker that starts out without any claim. -/
theorem insertDeliveryClaim_claims {id : Uuid} {claim : OutboxDeliveryClaim}
    (own : tokenOf t = some claim.claimToken) :
    Triple (machine τ text) (deliveryContract text tokenOf distinct) t
      (fun db => Table.HoldsNone t db.claims) (sql (.insertDeliveryClaim id claim))
      fun _ db => ClaimPrepared tokenOf t id db.claims := by
  refine Terms.triple_stmt holdsNone_stable nofun (fun _ _ _ =>
    ⟨fun _ => own, fun _ _ _ is => (nomatch is), nofun⟩) ?_
  intro db a db' none _ _ executed
  change exec text t (.insertDeliveryClaim id claim) db = _ at executed
  simp only [exec] at executed
  split at executed
  · obtain ⟨⟨out, T⟩, inserted, is⟩ := Option.map_eq_some_iff.mp executed
    obtain ⟨done, rfl⟩ := Prod.mk.inj is
    rcases Table.insert_cases inserted with ⟨-, failed⟩ | ⟨fresh, -, rfl, -⟩
    · cases done.symm.trans failed
    · exact ⟨(none.only id).put _, by simp, by simpa [none.view] using fresh,
        claim, by simp, own⟩
  · cases executed

theorem claimProcessingEventForDelivery_claims {claimToken : String}
    (worker : tokenOf t = some claimToken) (id : Uuid) :
    Triple (machine τ text) (deliveryContract text tokenOf distinct) t
      (fun db => Table.HoldsNone t db.claims) (claimProcessingEventForDelivery id claimToken)
      fun event db => event = none ∧ Table.HoldsNone t db.claims ∨
        ClaimPrepared tokenOf t id db.claims := by
  have skip : Triple (machine τ text) (deliveryContract text tokenOf distinct) t
      (fun db => Table.HoldsNone t db.claims) (pure none : Tx (Option OutboxEvent))
      fun event db => event = none ∧ Table.HoldsNone t db.claims ∨
        ClaimPrepared tokenOf t id db.claims := .pure fun _ held => .inl ⟨rfl, held⟩
  refine (triple_plain holdsNone_stable (only_plain rfl)).bind fun now => ?_
  refine (triple_plain holdsNone_stable (only_plain rfl)).bind fun event => ?_
  cases event with
  | none => exact skip
  | some event =>
      dsimp only
      split
      · exact skip
      · refine (triple_plain holdsNone_stable (only_plain rfl)).bind fun existingClaim => ?_
        split
        · exact skip
        · refine (triple_plain holdsNone_stable (only_plain rfl)).bind fun _ => ?_
          refine (insertDeliveryClaim_claims worker).bind fun _ => ?_
          exact (triple_plain claimPrepared_stable (only_plain rfl)).weaken (fun _ held => held)
            fun _ _ held => .inr held

/-- After its claim a worker owns the claim, if there is anything left for it to do. -/
def Claimed (tokenOf : τ → Option String) (t : τ) (id : Uuid) (action : DeliveryAction)
    (db : Db τ) : Prop :=
  Idle t db ∧ (action = .skip ∨ OwnsClaim tokenOf t id db.claims)

theorem idle_commit (t : τ) (db : Db τ) : Idle t (db.commit t) :=
  ⟨fun _ held => (Table.holder_commit_eq_some held).2 (Table.holder_commit_eq_some held).1,
    fun _ held => (Table.holder_commit_eq_some held).2 (Table.holder_commit_eq_some held).1⟩

/-- Before the commit of a worker's claim. -/
def ClaimReady (tokenOf : τ → Option String) (t : τ) (id : Uuid) (action : DeliveryAction)
    (db : Db τ) : Prop :=
  action = .skip ∧ Table.HoldsNone t db.claims ∨ ClaimPrepared tokenOf t id db.claims

theorem claimReady_stable (id : Uuid) (action : DeliveryAction) :
    (deliveryContract text tokenOf distinct).Stable t (ClaimReady tokenOf t id action) := by
  rintro db db' (⟨skips, none⟩ | prepared) moved holds
  · exact .inl ⟨skips, holdsNone_stable db db' none moved holds⟩
  · exact .inr (claimPrepared_stable db db' prepared moved holds)

theorem ClaimReady.shown {id : Uuid} {action : DeliveryAction}
    (h : ClaimReady tokenOf t id action db) : DeliveryShown tokenOf t .commit db := by
  refine ⟨fun _ => trivial, fun _ _ _ is => (nomatch is), fun _ other claim held here => ?_⟩
  rcases h with ⟨-, none⟩ | prepared
  · exact absurd held (none other)
  · obtain rfl := prepared.only other held
    cases prepared.fresh.symm.trans here

theorem ClaimReady.commit {id : Uuid} {action : DeliveryAction}
    (h : ClaimReady tokenOf t id action db) : Claimed tokenOf t id action (db.commit t) := by
  refine ⟨idle_commit t db, h.imp And.left fun prepared => ?_⟩
  obtain ⟨claim, here, own⟩ := prepared.own
  exact ⟨claim, by simpa [Db.commit, Table.view_of_held prepared.held] using here, own⟩

/-- Once the event is claimed, its worker only reads and expires its invite. -/
theorem deliveryAction_only {ops : DeliveryOps} (event : OutboxEvent) :
    (match some event with
      | none => pure .skip
      | some event =>
        if event.status = .processed ∨ event.status = .failed then pure .skip
        else if ¬inviteOutboxEventTypes.contains event.eventType then pure .markProcessed
        else match ops.parseInviteOutboxPayload event.payload with
        | none => pure (.fail "malformed_outbox_payload")
        | some payload => do
          let invite ← sql (.inviteById payload.inviteId)
          match invite with
          | none => pure (.fail "invite_not_found")
          | some invite =>
            if invite.status ≠ .pending then pure .markProcessed
            else do
              let now ← sql .now
              let expiredInvite ←
                sql (.expirePendingInvite payload.inviteId invite.organisationId now)
              if expiredInvite.isSome then pure .markProcessed
              else if ¬ops.inviteDeliveryEnabled then pure .markProcessed
              else match ops.keyError with
              | some error => raise (.valueError error)
              | none => match ops.decryptToken payload.encryptedRawToken with
                | none => pure (.fail "outbox_payload_decryption_failed")
                | some rawToken =>
                  if text.sha256 rawToken ≠ invite.tokenHash then pure (.fail "token_hash_mismatch")
                  else pure (.deliver invite rawToken) : Tx DeliveryAction).Only
      (·.isPlain = true) := by
  dsimp only
  split
  · trivial
  · split
    · trivial
    · split
      · trivial
      · refine only_bind (only_plain rfl) fun invite => ?_
        cases invite with
        | none => trivial
        | some invite =>
            dsimp only
            split
            · trivial
            · refine only_bind (only_plain rfl) fun now => ?_
              refine only_bind (only_plain rfl) fun expired => ?_
              repeat' first | trivial | split

theorem getClaimedEventContext_claims {claimToken : String} (worker : tokenOf t = some claimToken)
    (ops : DeliveryOps) (id : Uuid) (start : Idle t db) :
    wp (machine τ text) (deliveryContract text tokenOf distinct) t
      (getClaimedEventContext text ops id claimToken)
      (fun r db => ∀ action, r = .ok action → Claimed tokenOf t id action db) db := by
  refine Terms.wp_block (Triple.bind (claimProcessingEventForDelivery_claims worker id)
    fun event => ?_) (claimReady_stable id) (fun _ _ ready _ => ready.shown) ?_
    (fun _ _ _ _ _ _ _ is => by cases is) start.claims
  · cases event with
    | none => exact .pure fun db held => held.imp_left fun skipped => ⟨rfl, skipped.2⟩
    | some event =>
        exact (triple_plain claimPrepared_stable (deliveryAction_only event)).weaken
          (fun db held => held.resolve_left (by simp)) fun _ _ held => .inr held
  · intro action db r db' ready _ executed
    obtain ⟨rfl, rfl⟩ := exec_commit executed
    refine ⟨trivial, fun _ _ other is => ?_⟩
    cases is
    exact ready.commit

/-! ### The outcome -/

theorem exec_flushEvent {writer : Writer} {id : Uuid} {loaded assigned : OutboxEvent} {a : Unit}
    (changed : assigned ≠ loaded)
    (executed : exec text t (.flushEvent writer id loaded assigned) db = some (.ok a, db')) :
    ∃ current, db' = { db with
      events := db.events.put t id (some (loaded.flush db.clock assigned current)) } := by
  simp only [exec, flushEvent, if_neg changed] at executed
  obtain ⟨⟨out, T⟩, updated, is⟩ := Option.map_eq_some_iff.mp executed
  rcases Table.update_cases updated with ⟨rfl, rfl | ⟨rfl, -⟩⟩ | ⟨current, r, -, same, -, rfl, rfl⟩
  · cases (Prod.mk.inj is).1
  · cases (Prod.mk.inj is).1
  · cases same
    exact ⟨current, (Prod.mk.inj is).2.symm⟩

/-- An outcome takes its event out of processing, and the claim with it. -/
theorem reportOutcome_claims {writer : Writer} {id : Uuid} {event : OutboxEvent}
    {outcome : Time → OutboxEvent} (processing : event.status = .processing)
    (reports : ∀ now, (outcome now).status ≠ .processing) :
    Triple (machine τ text) (deliveryContract text tokenOf distinct) t
      (fun db => OwnsClaim tokenOf t id db.claims ∧ Table.HoldsNone t db.claims)
      (reportOutcome writer id event outcome) fun _ => OutcomePrepared t id := by
  have stable : (deliveryContract text tokenOf distinct).Stable t fun db =>
      OwnsClaim tokenOf t id db.claims ∧ Table.HoldsNone t db.claims :=
    ownsClaim_stable.and holdsNone_stable
  have read : Triple (machine τ text) (deliveryContract text tokenOf distinct) t
      (fun db => OwnsClaim tokenOf t id db.claims ∧ Table.HoldsNone t db.claims) (sql .now)
      fun _ db => OwnsClaim tokenOf t id db.claims ∧ Table.HoldsNone t db.claims :=
    triple_plain (A := fun claims => OwnsClaim tokenOf t id claims ∧ Table.HoldsNone t claims)
      stable (only_plain rfl)
  have cleared : Triple (machine τ text) (deliveryContract text tokenOf distinct) t
      (fun db => OwnsClaim tokenOf t id db.claims ∧ Table.HoldsNone t db.claims)
      (sql (.clearDeliveryClaim id)) fun _ db => Table.HoldsOnly t id db.claims := by
    refine Terms.triple_stmt stable nofun (fun db held _ =>
      ⟨fun _ => ?_, fun _ _ _ is => (nomatch is), nofun⟩) ?_
    · rintro claim here
      obtain ⟨⟨own, there, is⟩, -⟩ := held
      exact Option.some.inj (there.symm.trans here) ▸ is
    · intro db a db' held _ _ executed
      obtain ⟨⟨out, T⟩, deleted, is⟩ := Option.map_eq_some_iff.mp executed
      cases is
      rcases Table.delete_cases deleted with ⟨rfl, -⟩ | ⟨row, -, -, -, rfl, -⟩
      · exact held.2.only id
      · exact (held.2.only id).put none
  refine read.bind fun now => cleared.bind fun _ => ?_
  refine Terms.triple_stmt holdsOnly_stable nofun (fun db _ _ => shown_of_isPlain rfl db) ?_
  intro db a db' only _ _ executed
  have changed : outcome now ≠ event := fun same => reports now (by rw [same, processing])
  change exec text t (.flushEvent writer id event (outcome now)) db = _ at executed
  obtain ⟨current, rfl⟩ := exec_flushEvent changed executed
  refine ⟨only, by simp, event.flush db.clock (outcome now) current, by simp, ?_⟩
  have status : (event.flush db.clock (outcome now) current).status = (outcome now).status :=
    written_of_ne (by rw [processing]; exact reports now)
  rw [status]
  exact reports now

/-- Before the commit of an outcome, or of nothing. -/
def ReportReady (t : τ) (id : Uuid) (db : Db τ) : Prop :=
  Table.HoldsNone t db.claims ∨ OutcomePrepared t id db

theorem reportReady_stable (id : Uuid) :
    (deliveryContract text tokenOf distinct).Stable t (ReportReady t id) := by
  rintro db db' (none | prepared) moved holds
  · exact .inl (holdsNone_stable db db' none moved holds)
  · exact .inr (outcomePrepared_stable db db' prepared moved holds)

theorem ReportReady.shown {id : Uuid} (h : ReportReady t id db) :
    DeliveryShown tokenOf t .commit db := by
  refine ⟨fun _ => trivial, fun _ _ _ is => (nomatch is), fun _ other claim held here => ?_⟩
  rcases h with none | prepared
  · exact absurd held (none other)
  · obtain rfl := prepared.only other held
    obtain ⟨e, there, left⟩ := prepared.reported
    exact ⟨e, prepared.held, there, left⟩

theorem markedFailedAttempt_reports (event : OutboxEvent) (now : Time) (error : String) :
    (event.markedFailedAttempt now error).status ≠ .processing := by
  rw [event.status_markedFailedAttempt]
  split <;> simp

theorem applyResult_claims {claimToken : String} (id : Uuid) (success : Bool)
    (error : Option String) (idle : Idle t db) (own : OwnsClaim tokenOf t id db.claims) :
    wp (machine τ text) (deliveryContract text tokenOf distinct) t
      (applyResult id claimToken success error) (fun _ _ => True) db := by
  have found : Triple (machine τ text) (deliveryContract text tokenOf distinct) t
      (fun db => OwnsClaim tokenOf t id db.claims ∧ Table.HoldsNone t db.claims)
      (sql (.deliveryClaimedEvent id claimToken)) fun found db =>
        (OwnsClaim tokenOf t id db.claims ∧ Table.HoldsNone t db.claims) ∧
          ∀ event, found = some event → event.status = .processing := by
    refine Terms.triple_stmt (ownsClaim_stable.and holdsNone_stable) nofun
      (fun db _ _ => shown_of_isPlain rfl db) fun db found db' held _ _ executed => ?_
    cases executed
    refine ⟨held, fun event matched => ?_⟩
    obtain ⟨-, fine⟩ := Option.filter_eq_some_iff.mp matched
    simp only [Bool.and_eq_true, beq_iff_eq] at fine
    exact fine.1
  refine Terms.wp_block (Triple.bind found fun found => Triple.assume fun known => ?_)
    (fun _ => reportReady_stable id) (fun _ _ ready _ => ready.shown) (fun _ _ _ _ _ _ _ => ⟨trivial,
      fun _ _ => trivial⟩) (fun _ _ _ _ _ _ => trivial) ⟨own, idle.claims⟩
  cases found with
  | none => exact .pure fun _ held => .inl held.2
  | some event =>
      have processing := known event rfl
      dsimp only
      split
      · exact (reportOutcome_claims processing fun now => by simp).weaken (fun _ held => held)
          fun _ _ held => .inr held
      · cases error with
        | none => exact .pure fun _ held => .inl held.2
        | some error =>
            exact (reportOutcome_claims processing fun now =>
              markedFailedAttempt_reports event now error).weaken (fun _ held => held)
                fun _ _ held => .inr held

theorem processOutboxEvent_claims {claimToken : String} (worker : tokenOf t = some claimToken)
    (ops : DeliveryOps) (id : Uuid) (start : Idle t db) :
    wp (machine τ text) (deliveryContract text tokenOf distinct) t
      (processOutboxEvent text ops id claimToken) (fun _ _ => True) db := by
  refine wp_bind (wp_mono ?_ (getClaimedEventContext_claims worker ops id start))
  intro r db claimed
  cases r with
  | error e => trivial
  | ok action =>
      obtain ⟨idle, skips | own⟩ := claimed action rfl
      · cases skips
        trivial
      · cases action with
        | skip => trivial
        | markProcessed => exact applyResult_claims id true none idle own
        | fail error => exact applyResult_claims id false (some error) idle own
        | deliver invite rawToken =>
            refine wp_bind (wp_handle (wp_bind ?_))
            refine Terms.wp_statement (A := fun db => Idle t db ∧ OwnsClaim tokenOf t id db.claims)
              (idle_stable.and ownsClaim_stable) nofun ?_ ?_ ?_ ⟨idle, own⟩
            · rintro db ⟨idle, owned⟩ -
              refine ⟨fun _ => trivial, ?_, nofun⟩
              rintro _ _ _ same
              cases same
              exact ⟨owned, idle.events _⟩
            · rintro db r db' ⟨idle, own⟩ - - executed
              cases executed
              exact applyResult_claims id true none idle own
            · rintro e db ⟨idle, own⟩
              change wp _ _ t (applyResult id claimToken false
                (some ("delivery_failed:" ++ e.typeName))) _ _
              exact applyResult_claims id false _ idle own

theorem OutboxOp.program_claims (op : OutboxOp) (token : tokenOf t = op.claimToken)
    (start : Idle t db) :
    wp (machine τ text) (deliveryContract text tokenOf distinct) t (op.program text)
      (fun _ _ => True) db := by
  cases worker : op.claimToken with
  | none => exact unclaiming_wp (token.trans worker) (op.program_only worker)
  | some claimToken =>
      cases op with
      | work id claimToken ops => exact processOutboxEvent_claims token ops id start
      | _ => cases worker

end Operations

/-! ## What a worker does after its delivery -/

/-- A statement of a worker whose token has been delivered: if it writes an event at all, it
    writes it as processed. -/
def Statement.finishes : Statement → Bool
  | .flushEvent _ _ _ assigned => assigned.status == .processed
  | .insertEvent _ _ | .insertDeliveryClaim _ _ | .deliver _ _ _ => false
  | _ => true

def Statement.delivers : Statement → Bool
  | .deliver _ _ _ => true
  | _ => false

/-- After a delivery the program only finishes. -/
def EndsDelivery : Tx α → Prop
  | .done _ => True
  | .call s k => (s.delivers = true → ∀ a, (k (.ok a)).Only (·.finishes = true)) ∧
      ∀ r, EndsDelivery (k r)

theorem endsDelivery_of_only {p : Tx α} (only : p.Only (·.delivers = false)) : EndsDelivery p := by
  induction p with
  | done r => trivial
  | call s k ih =>
      exact ⟨fun delivers => absurd (only.1.symm.trans delivers) nofun, fun r => ih r (only.2 r)⟩

theorem endsDelivery_bind {β : Type} {p : Tx α} {f : α → Tx β}
    (only : p.Only (·.delivers = false)) (rest : ∀ a, EndsDelivery (f a)) :
    EndsDelivery (p >>= f) := by
  induction p with
  | done r =>
      cases r with
      | ok a => exact rest a
      | error e => trivial
  | call s k ih =>
      exact ⟨fun delivers => absurd (only.1.symm.trans delivers) nofun, fun r => ih r (only.2 r)⟩

theorem delivers_of_isUnclaiming (h : s.isUnclaiming = true) : s.delivers = false := by
  cases s <;> first | rfl | cases h

theorem delivers_of_isPlain (h : s.isPlain = true) : s.delivers = false := by
  cases s <;> first | rfl | cases h

theorem applyResult_finishes (id : Uuid) (claimToken : String) :
    (applyResult id claimToken true none).Only (·.finishes = true) := by
  refine only_transaction (only_bind (only_stmt.mpr rfl) fun found => ?_) ⟨rfl, rfl⟩
  cases found with
  | none => trivial
  | some event =>
      refine only_bind (only_stmt.mpr rfl) fun now => only_bind (only_stmt.mpr rfl) fun _ => ?_
      exact only_stmt.mpr (by simp [Statement.finishes])

theorem reportOutcome_delivers {writer : Writer} {id : Uuid} {event : OutboxEvent}
    {outcome : Time → OutboxEvent} :
    (reportOutcome writer id event outcome).Only (·.delivers = false) :=
  reportOutcome_only.mono fun _ => delivers_of_isUnclaiming

theorem applyResult_delivers (id : Uuid) (claimToken : String) (success : Bool)
    (error : Option String) :
    (applyResult id claimToken success error).Only (·.delivers = false) := by
  refine only_transaction (only_bind (only_stmt.mpr rfl) fun found => ?_) ⟨rfl, rfl⟩
  cases found with
  | none => trivial
  | some event =>
      dsimp only
      split
      · exact reportOutcome_delivers
      · cases error with
        | none => trivial
        | some error => exact reportOutcome_delivers

theorem getClaimedEventContext_delivers (ops : DeliveryOps) (id : Uuid) (claimToken : String) :
    (getClaimedEventContext text ops id claimToken).Only (·.delivers = false) := by
  refine only_transaction (only_bind ?_ fun event => ?_) ⟨rfl, rfl⟩
  · refine only_bind (only_stmt.mpr rfl) fun now => only_bind (only_stmt.mpr rfl) fun event => ?_
    cases event with
    | none => trivial
    | some event =>
        dsimp only
        split
        · trivial
        · refine only_bind (only_stmt.mpr rfl) fun existingClaim => ?_
          split
          · trivial
          · exact only_bind (only_stmt.mpr rfl) fun _ => only_bind (only_stmt.mpr rfl) fun _ =>
              only_stmt.mpr rfl
  · cases event with
    | none => trivial
    | some event => exact (deliveryAction_only event).mono fun _ => delivers_of_isPlain

theorem processOutboxEvent_endsDelivery (ops : DeliveryOps) (id : Uuid) (claimToken : String) :
    EndsDelivery (processOutboxEvent text ops id claimToken) := by
  refine endsDelivery_bind (getClaimedEventContext_delivers ops id claimToken) fun action => ?_
  cases action with
  | skip => trivial
  | markProcessed => exact endsDelivery_of_only (applyResult_delivers id claimToken true none)
  | fail error => exact endsDelivery_of_only (applyResult_delivers id claimToken false _)
  | deliver invite rawToken =>
      refine ⟨fun _ a => applyResult_finishes id claimToken, fun r => ?_⟩
      cases r with
      | ok a => exact endsDelivery_of_only (applyResult_delivers id claimToken true none)
      | error e =>
          exact endsDelivery_of_only
            (applyResult_delivers id claimToken false (some ("delivery_failed:" ++ e.typeName)))

theorem OutboxOp.program_endsDelivery (op : OutboxOp) : EndsDelivery (op.program text) := by
  cases worker : op.claimToken with
  | none =>
      exact endsDelivery_of_only ((op.program_only worker).mono fun _ => delivers_of_isUnclaiming)
  | some claimToken =>
      cases op with
      | work id claimToken ops => exact processOutboxEvent_endsDelivery ops id claimToken
      | _ => cases worker

end SaasTemplate.Outbox
