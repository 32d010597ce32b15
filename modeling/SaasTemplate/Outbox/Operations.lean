import SaasTemplate.Outbox.Contract

/-! # Each operation of the outbox keeps the contract

Claims and recovery write rows they have locked and know. A worker's outcome and the
release after a refused enqueue write a row they have only read; for them the condition
on such writes takes the place of the lock.
-/

set_option linter.unusedSectionVars false

namespace SaasTemplate.Outbox

open SaasTemplate.Isolation SaasTemplate.Isolation.Prog

variable {τ : Type} [DecidableEq τ] {text : TextOps} {tokenOf : τ → Option String} {t : τ}
  {s : Statement} {db db' : Db τ} {α : Type}

/-- `t` holds the lock of an event that it has not changed since it was read with `status`. -/
structure Locked (t : τ) (status : OutboxStatus) (row : Uuid × OutboxEvent) (db : Db τ) : Prop where
  held : db.events.holder row.1 = some t
  own : db.events.pending row.1 = some row.2
  status : row.2.status = status

/-- `t` holds the lock of an event and sees no delivery claim of it. -/
structure Cleared (t : τ) (id : Uuid) (db : Db τ) : Prop where
  held : db.events.holder id = some t
  gone : db.claims.view t id = none

/-- The event that was read as `loaded`; its limit is what it was. -/
def ReadAs (t : τ) (id : Uuid) (loaded : OutboxEvent) (db : Db τ) : Prop :=
  ∃ current, db.events.view t id = some current ∧ current.maxAttempts = loaded.maxAttempts

theorem Locked.view {status : OutboxStatus} {row : Uuid × OutboxEvent} (h : Locked t status row db) :
    db.events.view t row.1 = some row.2 := (Table.view_of_held h.held).trans h.own

theorem locked_stable {status : OutboxStatus} {row : Uuid × OutboxEvent} :
    (outboxContract text tokenOf).Stable t (Locked t status row) := by
  intro db db' h moved _
  have same := moved.stays.events.keeps.cell h.held
  exact ⟨(Table.holder_of_cell same).trans h.held, (Table.pending_of_cell same).trans h.own,
    h.status⟩

theorem cleared_stable {id : Uuid} : (outboxContract text tokenOf).Stable t (Cleared t id) :=
  fun _ _ h moved _ =>
    ⟨moved.stays.events.keeps.held_iff.mpr h.held, moved.stays.unseen h.held h.gone⟩

theorem readAs_stable {id : Uuid} {loaded : OutboxEvent} :
    (outboxContract text tokenOf).Stable t (ReadAs t id loaded) := by
  rintro db db' ⟨current, seen, limit⟩ moved -
  by_cases mine : db.events.holder id = some t
  · have same := moved.stays.events.keeps.cell mine
    exact ⟨current, (congrArg (Cell.view t) same).trans seen, limit⟩
  · have other := moved.stays.events.keeps.not_held mine
    rw [Table.view_of_not_held mine] at seen
    obtain ⟨later, now, advances⟩ := moved.stays.events.evolves id current seen
    exact ⟨later, by rw [Table.view_of_not_held other, now], advances.limit.trans limit⟩

theorem true_stable : (outboxContract text tokenOf).Stable t fun _ => True :=
  fun _ _ _ _ _ => trivial

/-- Rows that `t` has locked, each of them once. -/
structure LockedRows (t : τ) (status : OutboxStatus) (rows : List (Uuid × OutboxEvent))
    (db : Db τ) : Prop where
  once : (rows.map (·.1)).Nodup
  locked : ∀ row ∈ rows, Locked t status row db

theorem lockedRows_stable {status : OutboxStatus} {rows : List (Uuid × OutboxEvent)} :
    (outboxContract text tokenOf).Stable t (LockedRows t status rows) :=
  fun db db' h moved holds =>
    ⟨h.once, fun row member => locked_stable db db' (h.locked row member) moved holds⟩

theorem LockedRows.tail {status : OutboxStatus} {row : Uuid × OutboxEvent}
    {rest : List (Uuid × OutboxEvent)} (h : LockedRows t status (row :: rest) db) :
    LockedRows t status rest db :=
  ⟨(List.nodup_cons.mp h.once).2, fun other member => h.locked other (by simp [member])⟩

/-! ## Single statements -/

/-- An event that `t` has locked stays as it is under every statement of `t` but a flush of
    that event, until the transaction ends. -/
theorem Case.locked {status : OutboxStatus} {row : Uuid × OutboxEvent} (case : Case t s db db')
    (open_ : s ≠ .commit ∧ s ≠ .rollback)
    (other : ∀ writer loaded assigned, s ≠ .flushEvent writer row.1 loaded assigned)
    (h : Locked t status row db) : Locked t status row db' := by
  cases case with
  | quiet | insertDeliveryClaim | clearDeliveryClaim => exact ⟨h.held, h.own, h.status⟩
  | insertEvent id event is fresh free =>
      have differ : row.1 ≠ id := by
        rintro rfl
        simp [h.view] at fresh
      exact ⟨by simpa [Table.holder_put_other differ] using h.held,
        by simpa [Table.pending_put_other differ] using h.own, h.status⟩
  | lockEvent id event _ seen free =>
      by_cases same : row.1 = id
      · subst same
        rw [h.view] at seen
        cases seen
        exact ⟨by simp, by simp, h.status⟩
      · exact ⟨by simpa [Table.holder_put_other same] using h.held,
          by simpa [Table.pending_put_other same] using h.own, h.status⟩
  | flushEvent writer id loaded assigned current is =>
      have differ : row.1 ≠ id := by
        rintro rfl
        exact other writer loaded assigned is
      exact ⟨by simpa [Table.holder_put_other differ] using h.held,
        by simpa [Table.pending_put_other differ] using h.own, h.status⟩
  | commit is => exact absurd is open_.1
  | rollback is => exact absurd is open_.2

theorem LockedRows.keep {status : OutboxStatus} {rows : List (Uuid × OutboxEvent)}
    (h : LockedRows t status rows db) (case : Case t s db db')
    (open_ : s ≠ .commit ∧ s ≠ .rollback)
    (other : ∀ row ∈ rows, ∀ writer loaded assigned, s ≠ .flushEvent writer row.1 loaded assigned) :
    LockedRows t status rows db' :=
  ⟨h.once, fun row member => case.locked open_ (other row member) (h.locked row member)⟩

/-- Statements that need nothing and end no transaction. -/
def Statement.isHarmless : Statement → Bool
  | .insertEvent _ _ | .insertDeliveryClaim _ _ | .flushEvent _ _ _ _ | .commit | .rollback => false
  | _ => true

theorem needs_of_isHarmless (h : s.isHarmless = true) (db : Db τ) : Needs tokenOf t s db := by
  unfold Needs
  split <;> simp_all [Statement.isHarmless]

theorem ne_of_isHarmless (h : s.isHarmless = true) : s ≠ .commit ∧ s ≠ .rollback :=
  ⟨fun is => by simp [is, Statement.isHarmless] at h, fun is => by
    simp [is, Statement.isHarmless] at h⟩

theorem only_harmless (h : s.isHarmless = true) : (sql s).Only (·.isHarmless = true) :=
  only_stmt.mpr h

theorem triple_harmless {A : Db τ → Prop} {B : Answer s → Db τ → Prop}
    (stable : (outboxContract text tokenOf).Stable t A) (harmless : s.isHarmless = true)
    (effect : ∀ db a db', A db → Consistent tokenOf db → exec text t s db = some (.ok a, db') →
      B a db') :
    Triple (machine τ text) (outboxContract text tokenOf) t A (sql s) B :=
  Terms.triple_stmt stable (ne_of_isHarmless harmless).1
    (fun db _ _ _ => needs_of_isHarmless harmless db)
    fun db a db' held holds _ executed => effect db a db' held holds executed

/-- A program of harmless statements keeps what they cannot touch. -/
theorem triple_only {A : Db τ → Prop} {body : Tx α}
    (stable : (outboxContract text tokenOf).Stable t A)
    (keeps : ∀ {s db db'}, s.isHarmless = true → Case t s db db' → A db → A db')
    (only : body.Only (·.isHarmless = true)) :
    Triple (machine τ text) (outboxContract text tokenOf) t A body fun _ => A :=
  Terms.triple_only stable nofun (fun _ db harmless _ _ _ => needs_of_isHarmless harmless db)
    (fun _ _ _ _ harmless held _ _ executed => keeps harmless (exec_case executed) held) only

theorem LockedRows.harmless {status : OutboxStatus} {rows : List (Uuid × OutboxEvent)}
    (h : LockedRows t status rows db) (case : Case t s db db') (harmless : s.isHarmless = true) :
    LockedRows t status rows db' :=
  h.keep case (ne_of_isHarmless harmless) fun row _ writer loaded assigned is => by
    subst is
    cases harmless

/-- Harmless statements show the transaction its events unchanged. -/
theorem Case.view_event (case : Case t s db db') (harmless : s.isHarmless = true) (id : Uuid) :
    db'.events.view t id = db.events.view t id := by
  cases case with
  | quiet | insertDeliveryClaim | clearDeliveryClaim => rfl
  | lockEvent j event _ seen free =>
      by_cases same : id = j
      · subst same
        simp [seen]
      · simp [Table.view_put_other same]
  | insertEvent _ _ is => simp [is, Statement.isHarmless] at harmless
  | flushEvent _ _ _ _ _ is => simp [is, Statement.isHarmless] at harmless
  | commit is => simp [is, Statement.isHarmless] at harmless
  | rollback is => simp [is, Statement.isHarmless] at harmless

/-- A transaction of the outbox. -/
theorem triple_inTransaction {body : Tx α}
    (run : Triple (machine τ text) (outboxContract text tokenOf) t (fun _ => True) body
      fun _ _ => True) :
    Triple (machine τ text) (outboxContract text tokenOf) t (fun _ => True) (inTransaction body)
      fun _ _ => True := by
  intro db _
  exact Terms.wp_block run (fun _ => true_stable) (fun _ _ _ _ _ => trivial)
    (fun _ _ _ _ _ _ _ => ⟨trivial, fun _ _ _ _ => trivial⟩) (fun _ _ _ _ _ _ _ _ => trivial)
    trivial

/-- Harmless statements that nothing later depends on. -/
theorem triple_quiet {body : Tx α} (only : body.Only (·.isHarmless = true)) :
    Triple (machine τ text) (outboxContract text tokenOf) t (fun _ => True) body fun _ _ => True :=
  triple_only true_stable (fun _ _ held => held) only

/-! ## Locking reads -/

theorem eventIds_nodup (t : τ) (p : OutboxEvent → Bool) (key : OutboxEvent → Option Time)
    (db : Db τ) : (eventIds t p key db).Nodup := by
  have sorted := (List.perm_insertionSort
    (fun a b : Uuid × OutboxEvent => ∀ x ∈ key a.2, ∀ y ∈ key b.2, x ≤ y)
    (db.events.select t fun _ e => p e)).map Prod.fst
  exact sorted.nodup_iff.mpr (Table.select_nodup t _ db.events)

theorem lockOrSkip_locked {status : OutboxStatus} {id : Uuid}
    {p : OutboxEvent → Bool} {found : Option OutboxEvent}
    (marks : ∀ e, p e = true → e.status = status)
    (executed : lockOrSkip t id p db = some (.ok found, db')) {event : OutboxEvent}
    (is : found = some event) : Locked t status (id, event) db' := by
  simp only [lockOrSkip, Option.some.injEq, Prod.mk.injEq, Except.ok.injEq] at executed
  obtain ⟨answer, rfl⟩ := executed
  generalize locked : db.events.lockRowOrSkip t id p = out at answer
  obtain ⟨out, T⟩ := out
  rcases Table.lockRowOrSkip_cases locked with ⟨rfl, rfl⟩ | ⟨row, seen, holds, free, rfl, rfl⟩
  · simp [is] at answer
  · simp only [is, Option.some.injEq] at answer
    subst answer
    exact ⟨by simp, by simp, marks row holds⟩

/-- The loop of a locking `SELECT` ends with its rows locked. -/
theorem triple_lockEvents {status : OutboxStatus} {limit : Nat} {ids : List Uuid}
    {lock : Uuid → Tx (Option OutboxEvent)} (once : ids.Nodup)
    (locks : ∀ rows id, Triple (machine τ text) (outboxContract text tokenOf) t
      (LockedRows t status rows) (lock id) fun found db => LockedRows t status rows db ∧
        ∀ event, found = some event → Locked t status (id, event) db) :
    Triple (machine τ text) (outboxContract text tokenOf) t (fun _ => True)
      (lockEvents limit ids lock) (LockedRows t status) := by
  refine (Triple.collectUpTo (A := fun rows rest db =>
    LockedRows t status rows db ∧ (rows.map (·.1) ++ rest).Nodup) ?_ []).weaken ?_ ?_
  · intro rows id rest
    refine Triple.assume fun distinct => ?_
    refine (locks rows id).bind fun found => .pure fun db held => ?_
    obtain ⟨before, new⟩ := held
    cases found with
    | none => exact ⟨by simpa using before, by
        simpa using distinct.sublist ((List.sublist_cons_self id rest).append_left _)⟩
    | some event =>
        have listed : (rows.map (·.1) ++ [id] ++ rest).Nodup := by simpa using distinct
        refine ⟨⟨by simpa using (List.nodup_append.mp listed).1, ?_⟩, by simpa using listed⟩
        intro row member
        rcases List.mem_append.mp member with old | last
        · exact before.locked row old
        · simp only [Option.map_some, Option.toList_some, List.mem_singleton] at last
          exact last ▸ new event rfl
  · exact fun db _ => ⟨⟨by simp, by simp⟩, by simpa using once⟩
  · rintro rows db ⟨rest, held, -⟩
    simpa using held

theorem triple_lockDueEvent {now : Time} (rows : List (Uuid × OutboxEvent)) (id : Uuid) :
    Triple (machine τ text) (outboxContract text tokenOf) t (LockedRows t .pending rows)
      (sql (.lockDueEvent id now)) fun found db => LockedRows t .pending rows db ∧
        ∀ event, found = some event → Locked t .pending (id, event) db := by
  refine triple_harmless lockedRows_stable rfl fun db found db' held _ executed => ?_
  refine ⟨held.harmless (exec_case executed) rfl, fun event is => ?_⟩
  exact lockOrSkip_locked (fun e due => by simp_all [OutboxEvent.isDue]) executed is

theorem triple_lockStaleEvent {staleBefore : Time} (rows : List (Uuid × OutboxEvent)) (id : Uuid) :
    Triple (machine τ text) (outboxContract text tokenOf) t (LockedRows t .processing rows)
      (sql (.lockStaleEvent id staleBefore)) fun found db => LockedRows t .processing rows db ∧
        ∀ event, found = some event → Locked t .processing (id, event) db := by
  refine triple_harmless lockedRows_stable rfl fun db found db' held _ executed => ?_
  refine ⟨held.harmless (exec_case executed) rfl, fun event is => ?_⟩
  exact lockOrSkip_locked (fun e stale => by simp_all [OutboxEvent.isStale]) executed is

/-! ## Writing locked rows -/

/-- A flush of the first locked row, which leaves the others locked. -/
theorem triple_flush_locked {status : OutboxStatus} {A : Db τ → Prop} {writer : Writer}
    {row : Uuid × OutboxEvent} {rest : List (Uuid × OutboxEvent)} {assigned : OutboxEvent}
    (stable : (outboxContract text tokenOf).Stable t A)
    (rows : ∀ db, A db → LockedRows t status (row :: rest) db)
    (needs : ∀ db, A db → Consistent tokenOf db →
      Needs tokenOf t (.flushEvent writer row.1 row.2 assigned) db) :
    Triple (machine τ text) (outboxContract text tokenOf) t A
      (sql (.flushEvent writer row.1 row.2 assigned)) fun _ => LockedRows t status rest := by
  refine Terms.triple_stmt stable nofun (fun db held holds _ => needs db held holds) ?_
  intro db _ db' held _ _ executed
  have locked := rows db held
  change exec text t (.flushEvent writer row.1 row.2 assigned) db = _ at executed
  have case := exec_case executed
  refine locked.tail.keep case ⟨by simp, by simp⟩ fun other member writer' loaded assigned' same => ?_
  simp only [Statement.flushEvent.injEq] at same
  have once := (List.nodup_cons.mp locked.once).1
  exact once (List.mem_map.mpr ⟨other, member, same.2.1.symm⟩)

theorem Locked.ok {status : OutboxStatus} {row : Uuid × OutboxEvent} (h : Locked t status row db)
    (holds : Consistent tokenOf db) : row.2.Ok := holds.pendingOk h.own

/-- What a claim writes is fine on a locked event that can still be tried. -/
theorem Locked.needs_claim {status : OutboxStatus} {row : Uuid × OutboxEvent} {writer : Writer}
    {assigned : OutboxEvent} (h : Locked t status row db) (holds : Consistent tokenOf db)
    (live : status.isFinal = false) (claimed : assigned.status = .processing)
    (locked : assigned.lockedAt ≠ none) (attempts : assigned.attempts = row.2.attempts)
    (limit : assigned.maxAttempts = row.2.maxAttempts) :
    Needs tokenOf t (.flushEvent writer row.1 row.2 assigned) db := by
  intro current seen
  rw [h.view] at seen
  cases seen
  obtain ⟨kept, ok, advances⟩ := OutboxEvent.flush_claim db.clock (h.ok holds)
    (by rw [h.status]; exact live) claimed locked attempts limit
  exact ⟨ok, advances, .inl kept⟩

/-- What recovery writes is fine on a locked event without a claim. -/
theorem Locked.needs_outcome {row : Uuid × OutboxEvent} {writer : Writer} {assigned : OutboxEvent}
    (h : Locked t .processing row db) (cleared : Cleared t row.1 db)
    (outcome : row.2.IsOutcome assigned)
    (may : MayReport (tokenOf t) (db.claims.committed row.1) assigned.status) :
    Needs tokenOf t (.flushEvent writer row.1 row.2 assigned) db := by
  intro current seen
  rw [h.view] at seen
  cases seen
  obtain ⟨reported, ok, advances⟩ :=
    outcome.flush db.clock h.status h.status rfl rfl
  exact ⟨ok, advances, .inr ⟨cleared.gone, by rw [reported]; exact may⟩⟩

theorem mayReport_failedAttempt {claim : Option OutboxDeliveryClaim} {event : OutboxEvent}
    {now : Time} {error : String} :
    MayReport none claim (event.markedFailedAttempt now error).status := by
  simp only [MayReport, OutboxEvent.status_markedFailedAttempt]
  split <;> simp

theorem cleared_of_clear {r : Except AppError Unit} {id : Uuid} (held : db.events.holder id = some t)
    (executed : exec text t (.clearDeliveryClaim id) db = some (r, db')) : Cleared t id db' := by
  obtain ⟨⟨out, T⟩, deleted, is⟩ := Option.map_eq_some_iff.mp executed
  cases is
  refine ⟨held, ?_⟩
  rcases Table.delete_cases deleted with ⟨rfl, -, unmatched⟩ | ⟨row, -, -, -, rfl, -⟩
  · cases seen : db.claims.view t id with
    | none => rfl
    | some claim => simp [seen] at unmatched
  · simp

theorem PublishCall.event_ok (call : PublishCall) (createdAt updatedAt : Time) :
    (call.event createdAt updatedAt).Ok :=
  ⟨by simp [PublishCall.event], by simp [PublishCall.event], by simp [PublishCall.event]⟩

/-! ## The operations -/

theorem claimDueEvents_triple (limit : Nat) :
    Triple (machine τ text) (outboxContract text tokenOf) t (fun _ => True) (claimDueEvents limit)
      fun _ _ => True := by
  unfold claimDueEvents
  refine (triple_quiet (only_harmless rfl)).bind fun now => ?_
  have listed : Triple (machine τ text) (outboxContract text tokenOf) t (fun _ => True)
      (sql (.dueEventIds now)) fun ids _ => True ∧ ids.Nodup := by
    refine triple_harmless true_stable rfl fun db ids db' _ _ executed => ?_
    cases executed
    exact ⟨trivial, eventIds_nodup t _ _ _⟩
  refine listed.bind fun ids => Triple.assume fun once => ?_
  refine (triple_lockEvents once triple_lockDueEvent).bind fun claimed => ?_
  refine (triple_only lockedRows_stable (fun harmless case held => held.harmless case harmless)
    (only_forEach fun row _ => only_harmless rfl)).bind fun _ => ?_
  have flushed : Triple (machine τ text) (outboxContract text tokenOf) t
      (LockedRows t .pending (claimed.insertionSort fun a b => a.1 ≤ b.1))
      (forEach (claimed.insertionSort fun a b => a.1 ≤ b.1) fun row =>
        sql (.flushEvent .claimDueEvents row.1 row.2 (row.2.claimed now)))
      fun _ => LockedRows t .pending [] := by
    refine Triple.forEach_rest fun row rest => ?_
    refine triple_flush_locked lockedRows_stable (fun _ held => held) fun db held holds => ?_
    exact (held.locked row (by simp)).needs_claim holds rfl rfl nofun rfl rfl
  refine Triple.bind (flushed.weaken (fun db held => ?_) fun _ _ held => held) fun _ =>
    .pure fun _ _ => trivial
  have sorted := List.perm_insertionSort (fun a b : Uuid × OutboxEvent => a.1 ≤ b.1) claimed
  exact ⟨(sorted.map _).nodup_iff.mpr held.once, fun row member =>
    held.locked row (sorted.mem_iff.mp member)⟩

theorem recoverStaleEvents_triple (noWorker : tokenOf t = none) (staleTimeout : Duration)
    (limit : Nat) :
    Triple (machine τ text) (outboxContract text tokenOf) t (fun _ => True)
      (recoverStaleEvents staleTimeout limit) fun _ _ => True := by
  unfold recoverStaleEvents
  refine (triple_quiet (only_harmless rfl)).bind fun now => ?_
  have listed : Triple (machine τ text) (outboxContract text tokenOf) t (fun _ => True)
      (sql (.staleEventIds (now - staleTimeout))) fun ids _ => True ∧ ids.Nodup := by
    refine triple_harmless true_stable rfl fun db ids db' _ _ executed => ?_
    cases executed
    exact ⟨trivial, eventIds_nodup t _ _ _⟩
  refine listed.bind fun ids => Triple.assume fun once => ?_
  refine (triple_lockEvents once triple_lockStaleEvent).bind fun staleEvents => ?_
  refine Triple.bind (B := fun _ => LockedRows t .processing []) ?_ fun _ => .pure fun _ _ => trivial
  refine Triple.forEach_rest fun row rest => ?_
  unfold markFailedAttempt reportOutcome
  refine (triple_only lockedRows_stable (fun harmless case held => held.harmless case harmless)
    (only_harmless rfl)).bind fun now => ?_
  have cleared : Triple (machine τ text) (outboxContract text tokenOf) t
      (LockedRows t .processing (row :: rest)) (sql (.clearDeliveryClaim row.1))
      fun _ db => LockedRows t .processing (row :: rest) db ∧ Cleared t row.1 db := by
    refine triple_harmless lockedRows_stable rfl fun db _ db' held _ executed => ?_
    exact ⟨held.harmless (exec_case executed) rfl,
      cleared_of_clear (held.locked row (by simp)).held executed⟩
  refine cleared.bind fun _ => triple_flush_locked (lockedRows_stable.and cleared_stable)
    (fun _ held => held.1) fun db held holds => ?_
  have locked := held.1.locked row (by simp)
  refine locked.needs_outcome held.2 (isOutcome_markedFailedAttempt (locked.ok holds) locked.status) ?_
  rw [noWorker]
  exact mayReport_failedAttempt

/-- The outcome of an event that was only read: the condition on the write says that the
    row still is what was read. -/
theorem reportOutcome_triple {writer : Writer} {id : Uuid} {event : OutboxEvent}
    {outcome : Time → OutboxEvent} (processing : event.status = .processing)
    (outcomes : ∀ now, event.IsOutcome (outcome now))
    (current : ∀ now db, OutcomeIsCurrent t (.flushEvent writer id event (outcome now)) db →
      isAsRead t id event db = true ∧
        MayReport (tokenOf t) (db.claims.committed id) (outcome now).status) :
    Triple (machine τ text) (outboxContract text tokenOf) t (ReadAs t id event)
      (reportOutcome writer id event outcome) fun _ _ => True := by
  have keeps : ∀ {s : Statement} {db db' : Db τ}, s.isHarmless = true → Case t s db db' →
      ReadAs t id event db → ReadAs t id event db' := by
    rintro s db db' harmless case ⟨row, seen, limit⟩
    exact ⟨row, (case.view_event harmless id).trans seen, limit⟩
  unfold reportOutcome
  refine (triple_only readAs_stable keeps (only_harmless rfl)).bind fun now => ?_
  refine (triple_only readAs_stable keeps (only_harmless rfl)).bind fun _ => ?_
  refine Terms.triple_stmt readAs_stable nofun ?_ fun _ _ _ _ _ _ _ => trivial
  rintro db ⟨row, seen, limit⟩ holds permitted current' seen'
  obtain ⟨asRead, may⟩ := current now db permitted
  cases seen.symm.trans seen'
  simp only [isAsRead, seen, Option.any_some, Bool.and_eq_true, beq_iff_eq,
    Option.isNone_iff_eq_none] at asRead
  obtain ⟨⟨still, attempts⟩, gone⟩ := asRead
  obtain ⟨reported, ok, advances⟩ :=
    (outcomes now).flush db.clock processing still attempts limit
  exact ⟨ok, advances, .inr ⟨gone, by rw [reported]; exact may⟩⟩

theorem releaseAfterEnqueueFailure_triple (noWorker : tokenOf t = none) (id : Uuid)
    (errorType : String) :
    Triple (machine τ text) (outboxContract text tokenOf) t (fun _ => True)
      (releaseAfterEnqueueFailure id errorType) fun _ _ => True := by
  refine triple_inTransaction ?_
  have found : Triple (machine τ text) (outboxContract text tokenOf) t (fun _ => True)
      (sql (.eventById id)) fun found db => ∀ event, found = some event →
        ReadAs t id event db ∧ event.Ok := by
    refine triple_harmless true_stable rfl fun db found db' _ holds executed => ?_
    cases executed
    exact fun event seen => ⟨⟨event, seen, rfl⟩, holds.viewOk seen⟩
  refine found.bind fun found => ?_
  cases found with
  | none => exact .pure fun _ _ => trivial
  | some event =>
      refine Triple.weaken ?_ (fun db held => held event rfl) fun _ _ held => held
      refine Triple.assume fun ok => ?_
      dsimp only [releaseProcessingEventForRetry]
      split
      · exact .pure fun _ _ => trivial
      · rename_i stays
        have processing : event.status = .processing := not_not.mp stays
        refine reportOutcome_triple processing
          (fun now => isOutcome_markedFailedAttempt ok processing) fun now db permitted => ?_
        rw [noWorker]
        exact ⟨permitted, mayReport_failedAttempt⟩

theorem applyResult_triple {claimToken : String} (worker : tokenOf t = some claimToken) (id : Uuid)
    (success : Bool) (error : Option String) :
    Triple (machine τ text) (outboxContract text tokenOf) t (fun _ => True)
      (applyResult id claimToken success error) fun _ _ => True := by
  refine triple_inTransaction ?_
  have found : Triple (machine τ text) (outboxContract text tokenOf) t (fun _ => True)
      (sql (.deliveryClaimedEvent id claimToken)) fun found db => ∀ event, found = some event →
        ReadAs t id event db ∧ event.Ok ∧ event.status = .processing := by
    refine triple_harmless true_stable rfl fun db found db' _ holds executed => ?_
    cases executed
    intro event matched
    obtain ⟨seen, fine⟩ := Option.filter_eq_some_iff.mp matched
    simp only [Bool.and_eq_true, beq_iff_eq] at fine
    exact ⟨⟨event, seen, rfl⟩, holds.viewOk seen, fine.1⟩
  refine found.bind fun found => ?_
  cases found with
  | none => exact .pure fun _ _ => trivial
  | some event =>
      refine Triple.weaken ?_ (fun db held => held event rfl) fun _ _ held => held
      refine Triple.assume fun known => ?_
      -- the write needs the claim that was deleted to be the worker's own
      have current : ∀ assigned db,
          OutcomeIsCurrent t (.flushEvent (.applyResult claimToken) id event assigned) db →
          isAsRead t id event db = true ∧
            MayReport (tokenOf t) (db.claims.committed id) assigned.status := by
        intro assigned db permitted
        simp only [OutcomeIsCurrent, outcomeIsCurrent, Bool.and_eq_true, Option.any_eq_true,
          beq_iff_eq] at permitted
        obtain ⟨asRead, claim, here, own⟩ := permitted
        exact ⟨asRead, by simp [MayReport, worker, here, own]⟩
      dsimp only
      split
      · exact reportOutcome_triple known.2 (fun now => isOutcome_markedProcessed known.1)
          fun now db => current (event.markedProcessed now) db
      · cases error with
        | none => exact .pure fun _ _ => trivial
        | some error =>
            exact reportOutcome_triple known.2
              (fun now => isOutcome_markedFailedAttempt known.1 known.2)
              fun now db => current (event.markedFailedAttempt now error) db

/-- `t` holds the lock of an event that it leaves in processing. -/
def Kept (t : τ) (id : Uuid) (db : Db τ) : Prop :=
  db.events.holder id = some t ∧ ∃ e, db.events.pending id = some e ∧ e.status = .processing

theorem kept_stable {id : Uuid} : (outboxContract text tokenOf).Stable t (Kept t id) := by
  rintro db db' ⟨held, e, own, processing⟩ moved -
  have same := moved.stays.events.keeps.cell held
  exact ⟨(Table.holder_of_cell same).trans held, e, (Table.pending_of_cell same).trans own,
    processing⟩

/-- The flush of a claim leaves the event locked and in processing. -/
theorem claimFlush_triple {id : Uuid} {event assigned : OutboxEvent} {writer : Writer}
    (claimed : assigned.status = .processing) (locked : assigned.lockedAt ≠ none)
    (attempts : assigned.attempts = event.attempts)
    (limit : assigned.maxAttempts = event.maxAttempts) :
    Triple (machine τ text) (outboxContract text tokenOf) t (Locked t .processing (id, event))
      (sql (.flushEvent writer id event assigned)) fun _ => Kept t id := by
  refine Terms.triple_stmt locked_stable nofun
    (fun db held holds _ => held.needs_claim holds rfl claimed locked attempts limit) ?_
  intro db _ db' held holds _ executed
  change exec text t (.flushEvent writer id event assigned) db = _ at executed
  have own : db.events.view t id = some event := held.view
  cases exec_case executed with
  | quiet => exact ⟨held.held, event, held.own, held.status⟩
  | lockEvent j other _ seen free =>
      by_cases same : id = j
      · subst same
        cases own.symm.trans seen
        exact ⟨by simp, event, by simp, held.status⟩
      · exact ⟨by simpa [Table.holder_put_other same] using held.held, event,
          by simpa [Table.pending_put_other same] using held.own, held.status⟩
  | flushEvent _ _ _ _ current is _ seen free =>
      cases is
      cases own.symm.trans seen
      refine ⟨by simp, _, Table.pending_put_same .., ?_⟩
      have live : event.status.isFinal = false := by rw [held.status]; rfl
      exact (OutboxEvent.flush_claim _ (held.ok holds) live claimed locked attempts limit).1
  | insertEvent _ _ is => cases is
  | insertDeliveryClaim _ _ is => cases is
  | clearDeliveryClaim _ _ is => cases is
  | commit is => cases is
  | rollback is => cases is

theorem claimProcessingEventForDelivery_triple (id : Uuid) (claimToken : String) :
    Triple (machine τ text) (outboxContract text tokenOf) t (fun _ => True)
      (claimProcessingEventForDelivery id claimToken) fun _ _ => True := by
  unfold claimProcessingEventForDelivery
  refine (triple_quiet (only_harmless rfl)).bind fun now => ?_
  have locked : Triple (machine τ text) (outboxContract text tokenOf) t (fun _ => True)
      (sql (.lockEvent id)) fun found db => ∀ event, found = some event →
        Locked t event.status (id, event) db := by
    refine triple_harmless true_stable rfl fun db found db' _ _ executed => ?_
    obtain ⟨⟨out, T⟩, locked, is⟩ := Option.map_eq_some_iff.mp executed
    cases is
    rcases Table.lockRow_cases locked with ⟨-, rfl, -⟩ | ⟨row, -, -, -, rfl, rfl⟩
    · exact fun event is => by cases is
    · intro event is
      cases is
      exact ⟨by simp, by simp, rfl⟩
  refine locked.bind fun found => ?_
  cases found with
  | none => exact .pure fun _ _ => trivial
  | some event =>
      refine Triple.weaken ?_ (fun db held => held event rfl) fun _ _ held => held
      dsimp only
      split
      · exact .pure fun _ _ => trivial
      · rename_i stays
        have processing : event.status = .processing := not_not.mp stays
        rw [processing]
        refine (triple_only locked_stable (fun harmless case held => case.locked
          (ne_of_isHarmless harmless) (fun _ _ _ is => by simp [is, Statement.isHarmless] at harmless)
          held) (only_harmless rfl)).bind fun existing => ?_
        split
        · exact .pure fun _ _ => trivial
        · have claimed : (event.claimedForDelivery now).status = .processing := processing
          have locked : (event.claimedForDelivery now).lockedAt ≠ none := Option.some_ne_none now
          have inserted : Triple (machine τ text) (outboxContract text tokenOf) t (Kept t id)
              (sql (.insertDeliveryClaim id ⟨claimToken, now⟩)) fun _ _ => True :=
            Terms.triple_stmt kept_stable nofun (fun _ held _ _ => held)
              fun _ _ _ _ _ _ _ => trivial
          have reread : (sql (.eventById id)).Only (·.isHarmless = true) := only_harmless rfl
          have flushed : Triple (machine τ text) (outboxContract text tokenOf) t
              (Locked t .processing (id, event))
              (sql (.flushEvent .claimForDelivery id event (event.claimedForDelivery now)))
              fun _ => Kept t id := claimFlush_triple claimed locked rfl rfl
          exact flushed.bind fun _ => inserted.bind fun _ => triple_quiet reread

/-! ## Whole programs -/

theorem getClaimedEventContext_triple (ops : DeliveryOps) (id : Uuid) (claimToken : String) :
    Triple (machine τ text) (outboxContract text tokenOf) t (fun _ => True)
      (getClaimedEventContext text ops id claimToken) fun _ _ => True := by
  refine triple_inTransaction ?_
  refine (claimProcessingEventForDelivery_triple id claimToken).bind fun event => ?_
  refine triple_quiet ?_
  cases event with
  | none => trivial
  | some event =>
      dsimp only
      split
      · trivial
      · split
        · trivial
        · split
          · trivial
          · refine only_bind (only_harmless rfl) fun invite => ?_
            cases invite with
            | none => trivial
            | some invite =>
                dsimp only
                split
                · trivial
                · refine only_bind (only_harmless rfl) fun now => ?_
                  refine only_bind (only_harmless rfl) fun expired => ?_
                  repeat' first | trivial | split

theorem deliver_triple (id : Uuid) (invite : Tenancy.Invite) (rawToken : String) :
    Triple (machine τ text) (outboxContract text tokenOf) t (fun _ => True)
      (deliver id invite rawToken) fun _ _ => True :=
  triple_quiet (only_handle (only_bind (only_harmless rfl) fun _ => trivial) fun _ => trivial)

theorem processOutboxEvent_triple {claimToken : String} (worker : tokenOf t = some claimToken)
    (ops : DeliveryOps) (id : Uuid) :
    Triple (machine τ text) (outboxContract text tokenOf) t (fun _ => True)
      (processOutboxEvent text ops id claimToken) fun _ _ => True := by
  refine (getClaimedEventContext_triple ops id claimToken).bind fun action => ?_
  cases action with
  | skip => exact .pure fun _ _ => trivial
  | markProcessed => exact applyResult_triple worker id true none
  | fail error => exact applyResult_triple worker id false (some error)
  | deliver invite rawToken =>
      refine (deliver_triple id invite rawToken).bind fun failure => ?_
      cases failure with
      | none => exact applyResult_triple worker id true none
      | some errorType => exact applyResult_triple worker id false _

theorem claimAndEnqueueDueOutboxEvents_triple (noWorker : tokenOf t = none) (limit : Nat)
    (send : Uuid → Option String) :
    Triple (machine τ text) (outboxContract text tokenOf) t (fun _ => True)
      (claimAndEnqueueDueOutboxEvents limit send) fun _ _ => True := by
  refine (triple_inTransaction (claimDueEvents_triple limit)).bind fun claimed => ?_
  refine Triple.bind (B := fun _ _ => True) ?_ fun _ => .pure fun _ _ => trivial
  refine Triple.collect (A := fun _ _ => True) (fun row _ _ => ?_) []
  split
  · exact .pure fun _ _ => trivial
  · exact (releaseAfterEnqueueFailure_triple noWorker row.1 _).bind fun _ => .pure fun _ _ => trivial

/-- Every client of the outbox keeps the contract. -/
theorem OutboxOp.program_triple (op : OutboxOp) (token : tokenOf t = op.claimToken) :
    Triple (machine τ text) (outboxContract text tokenOf) t (fun _ => True) (op.program text)
      fun _ _ => True := by
  cases op with
  | publish request =>
      refine (triple_inTransaction ?_).bind fun _ => .pure fun _ _ => trivial
      refine (triple_quiet (only_harmless rfl)).bind fun createdAt => ?_
      refine (triple_quiet (only_harmless rfl)).bind fun updatedAt => ?_
      refine Triple.bind (B := fun _ _ => True) ?_ fun _ => triple_quiet (only_harmless rfl)
      exact Terms.triple_stmt true_stable nofun (fun _ _ _ _ => request.event_ok _ _)
        fun _ _ _ _ _ _ _ => trivial
  | dispatch limit send =>
      exact (claimAndEnqueueDueOutboxEvents_triple token limit send).bind fun _ =>
        .pure fun _ _ => trivial
  | work id claimToken ops => exact processOutboxEvent_triple token ops id
  | recover staleTimeout limit =>
      refine Triple.bind (B := fun _ _ => True) ?_ fun _ => .pure fun _ _ => trivial
      exact (triple_inTransaction (recoverStaleEvents_triple token staleTimeout limit)).bind
        fun _ => .pure fun _ _ => trivial

end SaasTemplate.Outbox
