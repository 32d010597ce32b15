import SaasTemplate.Isolation.Transactions
import SaasTemplate.Outbox.Services

/-! # The contract of the outbox

What every client of the outbox keeps, transaction by transaction: the law of an event
row, that delivery claims lie on events in processing, and that a transaction which takes
an event out of processing sees no delivery claim of it. The last is what the writes by
primary key can break, so it is where the condition on them enters.
-/

set_option linter.unusedSectionVars false

namespace SaasTemplate.Outbox

open SaasTemplate.Isolation SaasTemplate.Isolation.Prog

/-! ## Events -/

def OutboxStatus.isFinal : OutboxStatus → Bool
  | .processed | .failed => true
  | .pending | .processing => false

/-- What each version of an event satisfies. -/
structure OutboxEvent.Ok (e : OutboxEvent) : Prop where
  locked : e.status = .processing → e.lockedAt ≠ none
  attempts : e.attempts ≤ e.maxAttempts
  retryable : e.status.isFinal = false → e.attempts < e.maxAttempts

/-- How an event may change over time. -/
structure OutboxEvent.Advances (e f : OutboxEvent) : Prop where
  limit : f.maxAttempts = e.maxAttempts
  attempts : e.attempts ≤ f.attempts
  final : e.status.isFinal = true → f.status = e.status

theorem OutboxEvent.Advances.refl (e : OutboxEvent) : e.Advances e := ⟨rfl, le_rfl, fun _ => rfl⟩

theorem OutboxEvent.Advances.trans {e f g : OutboxEvent} (first : e.Advances f)
    (second : f.Advances g) : e.Advances g where
  limit := second.limit.trans first.limit
  attempts := first.attempts.trans second.attempts
  final final := (second.final (by rw [first.final final, final])).trans (first.final final)

/-- Events are never deleted, and they only advance. -/
def eventLaw : RowLaw Uuid OutboxEvent :=
  .persistent (fun _ => OutboxEvent.Advances) (fun _ => .refl) fun _ _ _ _ => .trans

/-! ### Flushes -/

section Flush

variable (clock : Time) {now : Time} {error : String} {loaded assigned current : OutboxEvent}

/-- What an object read as an event in processing becomes when its delivery has an outcome. -/
structure OutboxEvent.IsOutcome (loaded assigned : OutboxEvent) : Prop where
  reported : assigned.status ≠ .processing
  limit : assigned.maxAttempts = loaded.maxAttempts
  attempts : loaded.attempts ≤ assigned.attempts
  ok : assigned.Ok

theorem isOutcome_markedProcessed (ok : loaded.Ok) : loaded.IsOutcome (loaded.markedProcessed now) where
  reported := by simp
  limit := by simp
  attempts := by simp
  ok := ⟨by simp, by simpa using ok.attempts, by simp [OutboxStatus.isFinal]⟩

theorem isOutcome_markedFailedAttempt (ok : loaded.Ok) (processing : loaded.status = .processing) :
    loaded.IsOutcome (loaded.markedFailedAttempt now error) := by
  have open_ : loaded.attempts < loaded.maxAttempts :=
    ok.retryable (by simp [processing, OutboxStatus.isFinal])
  have status := loaded.status_markedFailedAttempt now error
  refine ⟨?_, by simp, by simp, ?_, by simpa using Nat.succ_le_of_lt open_, ?_⟩
  · rw [status]
    split <;> simp
  · rw [status]
    split <;> simp
  · rw [status]
    split
    · simp [OutboxStatus.isFinal]
    · rename_i more
      simpa using fun _ => Nat.lt_of_not_le more

/-- A flush of an outcome onto a row that is still as it was read. -/
theorem OutboxEvent.IsOutcome.flush (h : loaded.IsOutcome assigned)
    (processing : loaded.status = .processing) (still : current.status = .processing)
    (attempts : current.attempts = loaded.attempts) (limit : current.maxAttempts = loaded.maxAttempts) :
    (loaded.flush clock assigned current).status = assigned.status ∧
      (loaded.flush clock assigned current).Ok ∧
      current.Advances (loaded.flush clock assigned current) := by
  have status : (loaded.flush clock assigned current).status = assigned.status :=
    written_of_ne (by rw [processing]; exact h.reported)
  have tried : (loaded.flush clock assigned current).attempts = assigned.attempts := by
    simp [OutboxEvent.flush, attempts]
  have bound : (loaded.flush clock assigned current).maxAttempts = assigned.maxAttempts := by
    simp [OutboxEvent.flush, limit]
  refine ⟨status, ⟨?_, ?_, ?_⟩, ?_, ?_, ?_⟩
  · rw [status]
    exact fun is => absurd is h.reported
  · rw [tried, bound]
    exact h.ok.attempts
  · rw [status, tried, bound]
    exact h.ok.retryable
  · rw [bound, h.limit, limit]
  · rw [tried, attempts]
    exact h.attempts
  · simp [still, OutboxStatus.isFinal]

/-- A flush of a claim onto the row it was read from. -/
theorem OutboxEvent.flush_claim (ok : loaded.Ok) (live : loaded.status.isFinal = false)
    (claimed : assigned.status = .processing) (locked : assigned.lockedAt ≠ none)
    (attempts : assigned.attempts = loaded.attempts)
    (limit : assigned.maxAttempts = loaded.maxAttempts) :
    (loaded.flush clock assigned loaded).status = .processing ∧
      (loaded.flush clock assigned loaded).Ok ∧
      loaded.Advances (loaded.flush clock assigned loaded) := by
  have open_ := ok.retryable live
  refine ⟨by simpa [OutboxEvent.flush] using claimed, ⟨?_, ?_, ?_⟩, ?_, ?_, ?_⟩
  · simpa [OutboxEvent.flush] using fun _ => locked
  · simpa [OutboxEvent.flush, attempts, limit] using open_.le
  · simpa [OutboxEvent.flush, attempts, limit] using fun _ => open_
  · simpa [OutboxEvent.flush] using limit
  · simp [OutboxEvent.flush, attempts]
  · simp [live]

end Flush

/-! ## The invariant -/

variable {τ : Type} [DecidableEq τ]

/-- Which client may take an event with delivery claim `claim` to status `status`: a worker
    needs the claim to be its own, and only workers report a processed event. -/
def MayReport (token : Option String) (claim : Option OutboxDeliveryClaim) (status : OutboxStatus) :
    Prop :=
  match token with
  | some token => claim.map (·.claimToken) = some token
  | none => status ≠ .processed

structure Consistent (tokenOf : τ → Option String) (db : Db τ) : Prop where
  follows : db.events.Follows eventLaw
  committedOk : ∀ {id e}, db.events.committed id = some e → e.Ok
  pendingOk : ∀ {id e}, db.events.pending id = some e → e.Ok
  /-- A committed claim lies on an event in processing. -/
  claimed : ∀ {id claim}, db.claims.committed id = some claim →
    ∃ e, db.events.committed id = some e ∧ e.status = .processing
  /-- A claim that is being inserted belongs to an event its transaction keeps in processing. -/
  claiming : ∀ {id t claim}, db.claims.holder id = some t → db.claims.pending id = some claim →
    db.events.holder id = some t ∧
      ∃ e, db.events.pending id = some e ∧ e.status = .processing
  /-- A transaction that takes an event out of processing has seen to its claim. -/
  reported : ∀ {id t e f}, db.events.holder id = some t → db.events.committed id = some e →
    e.status = .processing → db.events.pending id = some f → f.status ≠ .processing →
    db.claims.view t id = none ∧ MayReport (tokenOf t) (db.claims.committed id) f.status

/-- What a step of `t` guarantees the others. -/
structure Moves (tokenOf : τ → Option String) (t : τ) (db db' : Db τ) : Prop where
  events : Table.Moves eventLaw t db.events db'.events
  claims : Table.Respects t db.claims db'.claims
  /-- Claims appear under the lock of their event. -/
  appear : ∀ {id}, db.claims.committed id = none → db'.claims.committed id ≠ none →
    db.events.holder id = some t
  /-- An event leaves processing by the hand of its claim. -/
  outcome : ∀ {id e f}, db.events.committed id = some e → db'.events.committed id = some f →
    e.status = .processing → f.status ≠ .processing →
    MayReport (tokenOf t) (db.claims.committed id) f.status

/-- What `t` relies on the others for. -/
structure Stays (t : τ) (db db' : Db τ) : Prop where
  events : Table.Stays eventLaw t db.events db'.events
  claims : Table.Keeps t db.claims db'.claims
  unclaimed : ∀ {id}, db.events.holder id = some t → db.claims.committed id = none →
    db'.claims.committed id = none

/-- The committed events and claims are the same. -/
structure SameCommitted (db db' : Db τ) : Prop where
  events : ∀ k, db'.events.committed k = db.events.committed k
  claims : ∀ k, db'.claims.committed k = db.claims.committed k

theorem Stays.refl (t : τ) (db : Db τ) : Stays t db db :=
  ⟨.refl _ t _, .refl t _, fun _ none => none⟩

theorem Stays.trans {t : τ} {a b c : Db τ} (first : Stays t a b) (second : Stays t b c) :
    Stays t a c where
  events := first.events.trans second.events
  claims := first.claims.trans second.claims
  unclaimed held none :=
    second.unclaimed (first.events.keeps.held_iff.mpr held) (first.unclaimed held none)

theorem Moves.stays {tokenOf : τ → Option String} {t u : τ} {db db' : Db τ}
    (h : Moves tokenOf t db db') (other : u ≠ t) : Stays u db db' where
  events := h.events.stays other
  claims := h.claims.keeps other
  unclaimed held none := by
    by_contra some
    exact other (Option.some.inj (held.symm.trans (h.appear none some)))

/-- A step after which nothing new is committed breaks no promise about commits. -/
theorem Moves.of_same {tokenOf : τ → Option String} {t : τ} {db db' : Db τ}
    (events : Table.Respects t db.events db'.events) (claims : Table.Respects t db.claims db'.claims)
    (same : SameCommitted db db') : Moves tokenOf t db db' where
  events := ⟨events, fun k => by rw [same.events k]; exact eventLaw.refl k _⟩
  claims := claims
  appear none some := by rw [same.claims] at some; exact absurd none some
  outcome here after processing left := by
    rw [same.events, here] at after
    cases after
    exact absurd processing left

section Keeps

variable {tokenOf : τ → Option String} {t : τ} {db db' : Db τ} {id : Uuid}

/-- A claim that a transaction has seen to stays so while it holds the event. -/
theorem Stays.unseen (h : Stays t db db') (held : db.events.holder id = some t)
    (gone : db.claims.view t id = none) :
    db'.claims.view t id = none := by
  by_cases mine : db.claims.holder id = some t
  · rw [← gone]
    exact congrArg (Cell.view t) (h.claims.cell mine)
  · rw [Table.view_of_not_held mine] at gone
    rw [Table.view_of_not_held (h.claims.not_held mine)]
    exact h.unclaimed held gone

theorem Stays.mayReport (h : Stays t db db') {status : OutboxStatus}
    (gone : db.claims.view t id = none)
    (may : MayReport (tokenOf t) (db.claims.committed id) status) :
    MayReport (tokenOf t) (db'.claims.committed id) status := by
  cases token : tokenOf t with
  | none => simpa [MayReport, token] using may
  | some own =>
      rw [token] at may
      have mine : db.claims.holder id = some t := by
        by_contra other
        rw [Table.view_of_not_held other] at gone
        simp [MayReport, gone] at may
      rw [Table.committed_of_cell (h.claims.cell mine)]
      exact may

/-- What a transaction owes for an event survives the steps of the others. -/
theorem Consistent.reported_of_stays (h : Consistent tokenOf db) (stays : Stays t db db')
    {e f : OutboxEvent} (held : db'.events.holder id = some t)
    (here : db'.events.committed id = some e) (processing : e.status = .processing)
    (prepared : db'.events.pending id = some f) (left : f.status ≠ .processing) :
    db'.claims.view t id = none ∧ MayReport (tokenOf t) (db'.claims.committed id) f.status := by
  obtain ⟨before, same⟩ := stays.events.keeps.cell_of_held held
  rw [Table.committed_of_cell same] at here
  rw [Table.pending_of_cell same] at prepared
  obtain ⟨gone, may⟩ := h.reported before here processing prepared left
  exact ⟨stays.unseen before gone, stays.mayReport gone may⟩

/-- After a step of `t` only `t` has to account for the events it holds. -/
theorem Consistent.reported_of_moves (h : Consistent tokenOf db) (moves : Moves tokenOf t db db')
    (own : ∀ {id e f}, db'.events.holder id = some t → db'.events.committed id = some e →
      e.status = .processing → db'.events.pending id = some f → f.status ≠ .processing →
      db'.claims.view t id = none ∧ MayReport (tokenOf t) (db'.claims.committed id) f.status)
    {u : τ} {e f : OutboxEvent} (held : db'.events.holder id = some u)
    (here : db'.events.committed id = some e) (processing : e.status = .processing)
    (prepared : db'.events.pending id = some f) (left : f.status ≠ .processing) :
    db'.claims.view u id = none ∧ MayReport (tokenOf u) (db'.claims.committed id) f.status := by
  by_cases mine : u = t
  · subst mine
    exact own held here processing prepared left
  · exact h.reported_of_stays (moves.stays mine) held here processing prepared left

theorem Consistent.viewOk (h : Consistent tokenOf db) {event : OutboxEvent}
    (seen : db.events.view t id = some event) : event.Ok := by
  by_cases mine : db.events.holder id = some t
  · exact h.pendingOk (Table.view_of_held mine ▸ seen)
  · exact h.committedOk (Table.view_of_not_held mine ▸ seen)

/-- Writing version `f` of an event. -/
theorem Consistent.putEvent (h : Consistent tokenOf db) {f : OutboxEvent}
    (free : db.events.free t id = true) (ok : f.Ok)
    (law : eventLaw.rel id (db.events.view t id) (some f))
    (claiming : ∀ claim, db.claims.holder id = some t → db.claims.pending id = some claim →
      f.status = .processing)
    (report : ∀ e, db.events.committed id = some e → e.status = .processing →
      f.status ≠ .processing →
      db.claims.view t id = none ∧ MayReport (tokenOf t) (db.claims.committed id) f.status) :
    Consistent tokenOf { db with events := db.events.put t id (some f) } ∧
      Moves tokenOf t db { db with events := db.events.put t id (some f) } := by
  have moves : Moves tokenOf t db { db with events := db.events.put t id (some f) } :=
    .of_same (Table.respects_put free) (.refl t _) ⟨fun k => by simp, fun _ => rfl⟩
  refine ⟨⟨h.follows.put (eventLaw.trans id (h.follows.view t id) law), ?_, ?_, ?_, ?_, ?_⟩, moves⟩
  · intro j e here
    exact h.committedOk (by simpa using here)
  · intro j e prepared
    by_cases same : j = id
    · subst same
      simp only [Table.pending_put_same, Option.some.injEq] at prepared
      exact prepared ▸ ok
    · exact h.pendingOk (by simpa [Table.pending_put_other same] using prepared)
  · intro j claim here
    obtain ⟨e, there, processing⟩ := h.claimed here
    exact ⟨e, by simpa using there, processing⟩
  · intro j u claim held prepared
    obtain ⟨holds, e, there, processing⟩ := h.claiming held prepared
    by_cases same : j = id
    · subst same
      have mine : u = t := by
        rcases Table.holder_of_free free with nobody | own
        · simp [holds] at nobody
        · exact Option.some.inj (holds.symm.trans own)
      subst mine
      exact ⟨by simp, f, by simp, claiming claim held prepared⟩
    · exact ⟨by simpa [Table.holder_put_other same] using holds, e,
        by simpa [Table.pending_put_other same] using there, processing⟩
  · refine h.reported_of_moves moves ?_
    intro j e g held here processing prepared left
    simp only [Table.committed_put] at here
    by_cases same : j = id
    · subst same
      simp only [Table.pending_put_same, Option.some.injEq] at prepared
      subst prepared
      exact report e here processing left
    · simp only [Table.holder_put_other same] at held
      simp only [Table.pending_put_other same] at prepared
      exact h.reported held here processing prepared left

/-- Writing a delivery claim, or deleting one. -/
theorem Consistent.putClaim (h : Consistent tokenOf db) {row : Option OutboxDeliveryClaim}
    (free : db.claims.free t id = true)
    (claiming : row ≠ none → db.events.holder id = some t ∧
      ∃ e, db.events.pending id = some e ∧ e.status = .processing) :
    Consistent tokenOf { db with claims := db.claims.put t id row } ∧
      Moves tokenOf t db { db with claims := db.claims.put t id row } := by
  have moves : Moves tokenOf t db { db with claims := db.claims.put t id row } :=
    .of_same (.refl t _) (Table.respects_put free) ⟨fun _ => rfl, fun k => by simp⟩
  refine ⟨⟨h.follows, h.committedOk, h.pendingOk, ?_, ?_, ?_⟩, moves⟩
  · intro j claim here
    exact h.claimed (by simpa using here)
  · intro j u claim held prepared
    by_cases same : j = id
    · subst same
      simp only [Table.holder_put_same, Option.some.injEq] at held
      subst held
      simp only [Table.pending_put_same] at prepared
      exact claiming (by simp [prepared])
    · simp only [Table.holder_put_other same] at held
      simp only [Table.pending_put_other same] at prepared
      exact h.claiming held prepared
  · refine h.reported_of_moves moves ?_
    intro j e f held here processing prepared left
    obtain ⟨gone, may⟩ := h.reported held here processing prepared left
    refine ⟨?_, by simpa using may⟩
    by_cases same : j = id
    · subst same
      cases row with
      | none => simp
      | some claim =>
          obtain ⟨-, g, there, kept⟩ := claiming (by simp)
          rw [prepared] at there
          cases there
          exact absurd kept left
    · simpa [Table.view_put_other same] using gone

/-- A transaction that prepared nothing but what the invariant says may commit. -/
theorem Consistent.commit (h : Consistent tokenOf db) (t : τ) :
    Consistent tokenOf (db.commit t) ∧ Moves tokenOf t db (db.commit t) := by
  have moves : Moves tokenOf t db (db.commit t) := by
    refine ⟨⟨Table.respects_commit t _, h.follows.commit_evolves t⟩, Table.respects_commit t _,
      ?_, ?_⟩
    · intro id none some
      obtain ⟨claim, seen⟩ := Option.ne_none_iff_exists'.mp some
      simp only [Db.commit, Table.committed_commit] at seen
      by_cases mine : db.claims.holder id = Option.some t
      · rw [Table.view_of_held mine] at seen
        exact (h.claiming mine seen).1
      · rw [Table.view_of_not_held mine, none] at seen
        cases seen
    · intro id e f here after processing left
      simp only [Db.commit, Table.committed_commit] at after
      by_cases mine : db.events.holder id = some t
      · rw [Table.view_of_held mine] at after
        exact (h.reported mine here processing after left).2
      · rw [Table.view_of_not_held mine, here] at after
        cases after
        exact absurd processing left
  refine ⟨⟨h.follows.commit t, ?_, ?_, ?_, ?_, ?_⟩, moves⟩
  · intro id e after
    exact h.viewOk (by simpa [Db.commit] using after)
  · intro id e after
    obtain ⟨u, held⟩ := Table.held_of_pending after
    obtain ⟨-, other⟩ := Table.holder_commit_eq_some held
    exact h.pendingOk (Table.pending_of_cell (Table.cell_commit_of_not_held other) ▸ after)
  · intro id claim after
    simp only [Db.commit, Table.committed_commit] at after ⊢
    by_cases mine : db.claims.holder id = some t
    · obtain ⟨held, e, prepared, processing⟩ := h.claiming mine (Table.view_of_held mine ▸ after)
      exact ⟨e, by rw [Table.view_of_held held, prepared], processing⟩
    · have here := after
      rw [Table.view_of_not_held mine] at here
      obtain ⟨e, committed, processing⟩ := h.claimed here
      by_cases held : db.events.holder id = some t
      · obtain ⟨f, prepared, -⟩ := h.follows id t held e committed
        refine ⟨f, by rw [Table.view_of_held held, prepared], ?_⟩
        by_contra left
        have gone := (h.reported held committed processing prepared left).1
        simp [after] at gone
      · exact ⟨e, by rw [Table.view_of_not_held held, committed], processing⟩
  · intro id u claim held prepared
    obtain ⟨before, other⟩ := Table.holder_commit_eq_some held
    rw [show (db.commit t).claims.pending id = db.claims.pending id from
      Table.pending_of_cell (Table.cell_commit_of_not_held other)] at prepared
    obtain ⟨holds, e, there, processing⟩ := h.claiming before prepared
    have notMine : db.events.holder id ≠ some t := by
      rw [holds, ← before]
      exact other
    have same := Table.cell_commit_of_not_held notMine
    exact ⟨(Table.holder_of_cell same).trans holds, e,
      (Table.pending_of_cell same).trans there, processing⟩
  · refine h.reported_of_moves moves ?_
    intro id e f held
    exact absurd (Table.holder_commit_eq_some held).1 (Table.holder_commit_eq_some held).2

theorem Consistent.rollback (h : Consistent tokenOf db) (t : τ) :
    Consistent tokenOf (db.rollback t) ∧ Moves tokenOf t db (db.rollback t) := by
  have moves : Moves tokenOf t db (db.rollback t) :=
    .of_same (Table.respects_rollback t _) (Table.respects_rollback t _)
      ⟨fun k => by simp [Db.rollback], fun k => by simp [Db.rollback]⟩
  refine ⟨⟨h.follows.rollback t, ?_, ?_, ?_, ?_, ?_⟩, moves⟩
  · intro id e here
    exact h.committedOk (by simpa [Db.rollback] using here)
  · intro id e after
    obtain ⟨u, held⟩ := Table.held_of_pending after
    obtain ⟨-, other⟩ := Table.holder_rollback_eq_some held
    exact h.pendingOk (Table.pending_of_cell (Table.cell_rollback_of_not_held other) ▸ after)
  · intro id claim here
    obtain ⟨e, there, processing⟩ := h.claimed (by simpa [Db.rollback] using here)
    exact ⟨e, by simpa [Db.rollback] using there, processing⟩
  · intro id u claim held prepared
    obtain ⟨before, other⟩ := Table.holder_rollback_eq_some held
    rw [show (db.rollback t).claims.pending id = db.claims.pending id from
      Table.pending_of_cell (Table.cell_rollback_of_not_held other)] at prepared
    obtain ⟨holds, e, there, processing⟩ := h.claiming before prepared
    have notMine : db.events.holder id ≠ some t := by
      rw [holds, ← before]
      exact other
    have same := Table.cell_rollback_of_not_held notMine
    exact ⟨(Table.holder_of_cell same).trans holds, e,
      (Table.pending_of_cell same).trans there, processing⟩
  · refine h.reported_of_moves moves ?_
    intro id e f held
    exact absurd (Table.holder_rollback_eq_some held).1 (Table.holder_rollback_eq_some held).2

end Keeps

/-! ## What the statements need -/

/-- What a statement needs to keep the invariant. -/
def Needs (tokenOf : τ → Option String) (t : τ) : Statement → Db τ → Prop
  | .insertEvent _ event, _ => event.Ok
  | .insertDeliveryClaim id _, db => db.events.holder id = some t ∧
      ∃ e, db.events.pending id = some e ∧ e.status = .processing
  | .flushEvent _ id loaded assigned, db => ∀ current, db.events.view t id = some current →
      (loaded.flush db.clock assigned current).Ok ∧
      current.Advances (loaded.flush db.clock assigned current) ∧
      ((loaded.flush db.clock assigned current).status = .processing ∨
        db.claims.view t id = none ∧ MayReport (tokenOf t) (db.claims.committed id)
          (loaded.flush db.clock assigned current).status)
  | _, _ => True

section Steps

variable {tokenOf : τ → Option String} {t : τ} {s : Statement} {db db' : Db τ}

theorem Consistent.lockEvent (h : Consistent tokenOf db) {id : Uuid} {event : OutboxEvent}
    (seen : db.events.view t id = some event) (free : db.events.free t id = true) :
    Consistent tokenOf { db with events := db.events.put t id (some event) } ∧
      Moves tokenOf t db { db with events := db.events.put t id (some event) } := by
  refine h.putEvent free (h.viewOk seen) (seen ▸ eventLaw.refl id _) ?_ ?_
  · intro claim held prepared
    obtain ⟨mine, e, there, processing⟩ := h.claiming held prepared
    rw [Table.view_of_held mine, there] at seen
    cases seen
    exact processing
  · intro e here processing left
    by_cases mine : db.events.holder id = some t
    · exact h.reported mine here processing (Table.view_of_held mine ▸ seen) left
    · rw [Table.view_of_not_held mine, here] at seen
      cases seen
      exact absurd processing left

theorem Consistent.insertEvent (h : Consistent tokenOf db) {id : Uuid} {event : OutboxEvent}
    (fresh : db.events.view t id = none) (free : db.events.free t id = true) (ok : event.Ok) :
    Consistent tokenOf { db with events := db.events.put t id (some event) } ∧
      Moves tokenOf t db { db with events := db.events.put t id (some event) } := by
  refine h.putEvent free ok (by simp [fresh, eventLaw]) ?_ ?_
  · intro claim held prepared
    obtain ⟨mine, e, there, -⟩ := h.claiming held prepared
    simp [Table.view_of_held mine, there] at fresh
  · intro e here
    obtain ⟨f, seen, -⟩ := h.follows.view t id e here
    simp [fresh] at seen

theorem Consistent.flushEvent (h : Consistent tokenOf db) {writer : Writer} {id : Uuid}
    {loaded assigned current : OutboxEvent} (seen : db.events.view t id = some current)
    (free : db.events.free t id = true)
    (needs : Needs tokenOf t (.flushEvent writer id loaded assigned) db) :
    Consistent tokenOf { db with
      events := db.events.put t id (some (loaded.flush db.clock assigned current)) } ∧
    Moves tokenOf t db { db with
      events := db.events.put t id (some (loaded.flush db.clock assigned current)) } := by
  obtain ⟨ok, advances, kept⟩ := needs current seen
  refine h.putEvent free ok (by simpa [seen, eventLaw] using advances) ?_ ?_
  · intro claim held prepared
    rcases kept with processing | ⟨gone, -⟩
    · exact processing
    · simp [Table.view_of_held held, prepared] at gone
  · intro e here processing left
    exact kept.resolve_left left

/-- Every statement keeps the invariant if it has what it needs. -/
theorem Case.keeps (case : Case t s db db') (h : Consistent tokenOf db)
    (needs : Needs tokenOf t s db) :
    Consistent tokenOf db' ∧ Moves tokenOf t db db' ∧ (s ≠ .commit → SameCommitted db db') := by
  cases case with
  | quiet invites open_ =>
      exact ⟨⟨h.follows, h.committedOk, h.pendingOk, h.claimed, h.claiming, h.reported⟩,
        .of_same (.refl t _) (.refl t _) ⟨fun _ => rfl, fun _ => rfl⟩,
        fun _ => ⟨fun _ => rfl, fun _ => rfl⟩⟩
  | insertEvent id event is fresh free =>
      subst is
      obtain ⟨kept, moved⟩ := h.insertEvent fresh free needs
      exact ⟨kept, moved, fun _ => ⟨fun k => by simp, fun _ => rfl⟩⟩
  | lockEvent id event open_ seen free =>
      obtain ⟨kept, moved⟩ := h.lockEvent seen free
      exact ⟨kept, moved, fun _ => ⟨fun k => by simp, fun _ => rfl⟩⟩
  | flushEvent writer id loaded assigned current is changed seen free =>
      subst is
      obtain ⟨kept, moved⟩ := h.flushEvent seen free needs
      exact ⟨kept, moved, fun _ => ⟨fun k => by simp, fun _ => rfl⟩⟩
  | insertDeliveryClaim id claim is fresh free =>
      subst is
      obtain ⟨kept, moved⟩ := h.putClaim free fun _ => needs
      exact ⟨kept, moved, fun _ => ⟨fun _ => rfl, fun k => by simp⟩⟩
  | clearDeliveryClaim id claim is seen free =>
      obtain ⟨kept, moved⟩ : Consistent tokenOf { db with claims := db.claims.put t id none } ∧
          Moves tokenOf t db { db with claims := db.claims.put t id none } :=
        h.putClaim free fun some => absurd rfl some
      exact ⟨kept, moved, fun _ => ⟨fun _ => rfl, fun k => by simp⟩⟩
  | commit is =>
      obtain ⟨kept, moved⟩ := h.commit t
      exact ⟨kept, moved, fun open_ => absurd is open_⟩
  | rollback is =>
      obtain ⟨kept, moved⟩ := h.rollback t
      exact ⟨kept, moved, fun _ => ⟨fun k => by simp [Db.rollback], fun k => by simp [Db.rollback]⟩⟩

end Steps

theorem exec_commit {text : TextOps} {t : τ} {db db' : Db τ} {r : Except AppError Unit}
    (h : (machine τ text).exec t .commit db = some (r, db')) : r = .ok () ∧ db' = db.commit t := by
  cases h
  exact ⟨rfl, rfl⟩

theorem rollback_ne_commit : Statement.rollback ≠ .commit := by simp

theorem rollback_ok {text : TextOps} {t : τ} {db db' : Db τ} {r : Except AppError Unit}
    (executed : (machine τ text).exec t .rollback db = some (r, db')) : ∃ x, r = .ok x := by
  cases executed
  exact ⟨(), rfl⟩

theorem rollback_certain (τ : Type) [DecidableEq τ] (text : TextOps) :
    ¬(machine τ text).fallible .rollback := by
  simp [machine]

/-- The outbox as a store that clients use in transactions. -/
def outboxDiscipline (text : TextOps) (tokenOf : τ → Option String) :
    Discipline (machine τ text) .commit .rollback where
  inv := Consistent tokenOf
  moves := Moves tokenOf
  stays := Stays
  unchanged := SameCommitted
  needs := Needs tokenOf
  stays_refl := .refl
  stays_trans := .trans
  stays_of_moves other moved := moved.stays other
  exec h needs executed := (exec_case executed).keeps h needs
  crash {t} _ h := (Case.rollback (s := .rollback) rfl).keeps h (t := t) trivial |>.imp_right
    fun out => ⟨out.1, out.2 nofun⟩
  env := by
    rintro db db' h ⟨clock, invites, rfl⟩
    exact ⟨⟨h.follows, h.committedOk, h.pendingOk, h.claimed, h.claiming, h.reported⟩,
      fun t => ⟨.refl _ t _, .refl t _, fun _ none => none⟩, ⟨fun _ => rfl, fun _ => rfl⟩⟩
  unchanged_refl _ := ⟨fun _ => rfl, fun _ => rfl⟩
  differ := rollback_ne_commit
  rollback_needs _ _ := trivial
  rollback_ok := rollback_ok
  certain := rollback_certain τ text

/-! ## The condition on writes by primary key -/

/-- Is event `id`, as `t` finds it now, still in processing with the attempts it was read
    with, and free of delivery claims? -/
def isAsRead (t : τ) (id : Uuid) (loaded : OutboxEvent) (db : Db τ) : Bool :=
  ((db.events.view t id).any fun current =>
    current.status == .processing && current.attempts == loaded.attempts) &&
  (db.claims.view t id).isNone

/-- Does a write by primary key that follows a plain read hit the event it was meant for? A
    worker must also have deleted its own claim, not that of another. -/
def outcomeIsCurrent (t : τ) (s : Statement) (db : Db τ) : Bool :=
  match s with
  | .flushEvent (.applyResult claimToken) id loaded _ =>
      isAsRead t id loaded db && (db.claims.committed id).any (·.claimToken == claimToken)
  | .flushEvent .releaseForRetry id loaded _ => isAsRead t id loaded db
  | _ => true

/-- Writes by primary key that follow a plain read hit the event they were meant for. -/
def OutcomeIsCurrent (t : τ) (s : Statement) (db : Db τ) : Prop := outcomeIsCurrent t s db = true

/-- Each client shows what its statements need, as long as the condition is met. -/
def outboxTerms (text : TextOps) (tokenOf : τ → Option String) :
    Terms (outboxDiscipline text tokenOf) where
  promise _ _ _ := True
  allowed := OutcomeIsCurrent
  shows t s db := OutcomeIsCurrent t s db → Needs tokenOf t s db
  unbroken _ _ _ _ := trivial
  enough _ ok shown := shown ok
  rollback_shows _ _ _ := trivial

abbrev outboxContract (text : TextOps) (tokenOf : τ → Option String) :
    Contract τ Statement (Db τ) := (outboxTerms text tokenOf).contract

end SaasTemplate.Outbox
