import SaasTemplate.Outbox.Operations

/-! # The state machine of the outbox in every run

As long as the writes that follow a plain read hit the event they were meant for, events
move through their statuses as intended. The schedule at the end shows a release after a
refused enqueue that hits an event which was delivered in the meantime.
-/

set_option linter.unusedSectionVars false

namespace SaasTemplate.Outbox

open SaasTemplate.Isolation

variable {τ : Type} [DecidableEq τ] {text : TextOps}

/-- Clients that are about to run their operations, on a committed database. -/
structure OutboxStart (text : TextOps) (op : τ → OutboxOp)
    (c : Config τ Statement Answer AppError (Db τ) Unit) : Prop where
  eventsUnlocked : ∀ id, c.db.events.holder id = none
  claimsUnlocked : ∀ id, c.db.claims.holder id = none
  eventsOk : ∀ {id e}, c.db.events.committed id = some e → e.Ok
  claimed : ∀ {id claim}, c.db.claims.committed id = some claim →
    ∃ e, c.db.events.committed id = some e ∧ e.status = .processing
  operations : ∀ t, c.run t = some ((op t).program text)

/-- The state machine of the outbox, from configuration `c` on, as seen in `d`. -/
structure StateMachine (text : TextOps) (op : τ → OutboxOp) (allowed : τ → Statement → Db τ → Prop)
    (c d : Config τ Statement Answer AppError (Db τ) Unit) : Prop where
  /-- Events stay, attempts do not decrease, and a final status is final. -/
  advances : ∀ {id e}, c.db.events.committed id = some e →
    ∃ f, d.db.events.committed id = some f ∧ e.Advances f
  bounded : ∀ {id e}, d.db.events.committed id = some e → e.attempts ≤ e.maxAttempts
  recoverable : ∀ {id e}, d.db.events.committed id = some e → e.status = .processing →
    e.lockedAt ≠ none
  claimed : ∀ {id claim}, d.db.claims.committed id = some claim →
    ∃ e, d.db.events.committed id = some e ∧ e.status = .processing
  /-- An event leaves processing with a commit. That of a worker needs the worker's claim to
      be the current one, and only a worker makes it processed. -/
  reported : ∀ {next id e f}, (machine τ text).Step allowed d next →
    d.db.events.committed id = some e → e.status = .processing →
    next.db.events.committed id = some f → f.status ≠ .processing →
    ∃ t k, d.run t = some (.call .commit k) ∧ next.db = d.db.commit t ∧
      MayReport (op t).claimToken (d.db.claims.committed id) f.status

theorem OutboxStart.consistent {op : τ → OutboxOp}
    {c : Config τ Statement Answer AppError (Db τ) Unit} (h : OutboxStart text op c) :
    Consistent (fun t => (op t).claimToken) c.db where
  follows k t held := by simp [h.eventsUnlocked k] at held
  committedOk := h.eventsOk
  pendingOk {id e} prepared := by
    obtain ⟨t, held⟩ := Table.held_of_pending prepared
    simp [h.eventsUnlocked id] at held
  claimed := h.claimed
  claiming {id t claim} held := by simp [h.claimsUnlocked id] at held
  reported {id t e f} held := by simp [h.eventsUnlocked id] at held

theorem OutboxStart.safe {op : τ → OutboxOp}
    {c : Config τ Statement Answer AppError (Db τ) Unit} (h : OutboxStart text op c) :
    Contract.Sound.Safe (machine τ text) (outboxContract text fun t => (op t).claimToken)
      (fun _ _ _ => True) c := by
  refine ⟨h.consistent, fun t s k running => ?_⟩
  have program : (op t).program text = .call s k :=
    Option.some.inj ((h.operations t).symm.trans running)
  have keeps : Triple (machine τ text) (outboxContract text fun t => (op t).claimToken) t
      (fun _ => True) ((op t).program text) fun _ _ => True := (op t).program_triple rfl
  rw [← program]
  exact wp_mono (fun _ _ _ => trivial) (keeps c.db trivial)

/-- The events of a run advance. -/
theorem advances_of_reaches {op : τ → OutboxOp}
    {c d : Config τ Statement Answer AppError (Db τ) Unit}
    (safe : Contract.Sound.Safe (machine τ text) (outboxContract text fun t => (op t).claimToken)
      (fun _ _ _ => True) c)
    (run : (machine τ text).Reaches OutcomeIsCurrent c d) :
    Table.Evolves eventLaw c.db.events d.db.events := by
  have sound := (outboxTerms text fun t => (op t).claimToken).sound
  refine sound.reaches_rel (P := fun db db' => Table.Evolves eventLaw db.events db'.events)
    (fun db => .refl _ _) Table.Evolves.trans (fun promised => promised.1.events.evolves) ?_ safe run
  rintro db _ - ⟨clock, invites, rfl⟩
  exact .refl _ _

/-- In every run in which the writes that follow a plain read hit the event they were meant
    for, the outbox keeps to its state machine. -/
theorem outbox_state_machine {op : τ → OutboxOp}
    {start c d : Config τ Statement Answer AppError (Db τ) Unit} (h : OutboxStart text op start)
    (before : (machine τ text).Reaches OutcomeIsCurrent start c)
    (after : (machine τ text).Reaches OutcomeIsCurrent c d) :
    StateMachine text op OutcomeIsCurrent c d := by
  have sound := (outboxTerms text fun t => (op t).claimToken).sound
  have safeC := sound.invariant h.safe before
  have safeD := sound.invariant safeC after
  have holds : Consistent (fun t => (op t).claimToken) d.db := safeD.1
  refine ⟨?_, fun here => (holds.committedOk here).attempts,
    fun here => (holds.committedOk here).locked, holds.claimed, ?_⟩
  · intro id e here
    exact advances_of_reaches safeC after id e here
  · intro next id e f step here processing there left
    have needed : ∀ t s k, d.run t = some (.call s k) → OutcomeIsCurrent t s d.db →
        Needs (fun t => (op t).claimToken) t s d.db :=
      fun t s k running => sound.shown safeD running
    rcases (outboxDiscipline text fun t => (op t).claimToken).step_commits holds needed step with
      same | ⟨t, k, r, running, executed, -⟩
    · rw [same.events, here] at there
      cases there
      exact absurd processing left
    · have commits := (exec_commit executed).2
      rw [commits] at there
      exact ⟨t, k, running, commits, (holds.commit t).2.outcome here there processing left⟩

/-! ## The two schedules -/

/-- A pending event whose type no worker delivers. -/
def exampleEvent : OutboxEvent where
  eventType := "report.created"
  aggregateType := none
  aggregateId := none
  payload := .dict []
  status := .pending
  attempts := 0
  maxAttempts := 10
  nextAttemptAt := none
  lockedAt := none
  processedAt := none
  lastError := none
  createdAt := 0
  updatedAt := 0

def exampleDb : Db Bool where
  events := .ofRows [(1, exampleEvent)]
  claims := .ofRows []
  invites := .ofRows []
  clock := 0

def exampleOps : DeliveryOps := ⟨fun _ => none, true, none, fun _ => none⟩

/-- A dispatcher, for which the broker raises as `send` says, and a worker for event 1. -/
def exampleOp (send : Option String) : Bool → OutboxOp
  | false => .dispatch 1 fun _ => send
  | true => .work 1 "token" exampleOps

def exampleStart (send : Option String) : Config Bool Statement Answer AppError (Db Bool) Unit :=
  ⟨exampleDb, fun t => some ((exampleOp send t).program plainText)⟩

theorem exampleStart_start (send : Option String) :
    OutboxStart plainText (exampleOp send) (exampleStart send) where
  eventsUnlocked := Table.holder_ofRows _
  claimsUnlocked := Table.holder_ofRows _
  eventsOk {id e} here := by
    have member := Table.lookup_mem ((Table.committed_ofRows _ _).symm.trans here)
    simp only [List.mem_singleton, Prod.mk.injEq] at member
    rw [member.2]
    exact ⟨by simp [exampleEvent], by decide, by decide⟩
  claimed {id claim} here := by simp [exampleStart, exampleDb] at here
  operations _ := rfl

/-- The status and the attempts of event 1. -/
def firstEvent (c : Config Bool Statement Answer AppError (Db Bool) Unit) :
    Option (OutboxStatus × Nat) :=
  (c.db.events.committed 1).map fun e => (e.status, e.attempts)

/-- The dispatcher enqueues the event and the worker reports it processed. -/
theorem outbox_state_machine_example :
    ∃ d, (machine Bool plainText).Reaches OutcomeIsCurrent (exampleStart none) d ∧
      firstEvent d = some (.processed, 0) ∧
      StateMachine plainText (exampleOp none) OutcomeIsCurrent (exampleStart none) d := by
  have played : ((machine Bool plainText).play outcomeIsCurrent
      (List.replicate 6 false ++ List.replicate 12 true) (exampleStart none)).map firstEvent =
        some (some (.processed, 0)) := by decide
  obtain ⟨d, run, seen⟩ := Machine.run_of_play (fun _ _ _ passed => passed) played
  exact ⟨d, run, seen, outbox_state_machine (exampleStart_start none) .refl run⟩

/-- The broker refuses the event, and the release reads it in processing. A worker that has
    an older message delivers it, and then the release makes it pending again. -/
theorem processed_event_released :
    ¬∀ (op : Bool → OutboxOp) (start c d : Config Bool Statement Answer AppError (Db Bool) Unit),
      OutboxStart plainText op start →
      (machine Bool plainText).Reaches (fun _ _ _ => True) start c →
      (machine Bool plainText).Reaches (fun _ _ _ => True) c d →
      StateMachine plainText op (fun _ _ _ => True) c d := by
  intro claim
  have delivered : ((machine Bool plainText).play (fun _ _ _ => true)
      (List.replicate 7 false ++ List.replicate 12 true) (exampleStart (some "Error"))).map
        firstEvent = some (some (.processed, 0)) := by decide
  have released : ((machine Bool plainText).play (fun _ _ _ => true)
      (List.replicate 7 false ++ List.replicate 12 true ++ List.replicate 4 false)
      (exampleStart (some "Error"))).map firstEvent = some (some (.pending, 1)) := by decide
  have checked : ∀ (t : Bool) (s : Statement) (db : Db Bool), true = true → True :=
    fun _ _ _ _ => trivial
  obtain ⟨c, d, before, after, processed, pending⟩ := Machine.runs_of_play checked delivered released
  obtain ⟨e, here, seen⟩ := Option.map_eq_some_iff.mp processed
  obtain ⟨f, there, advances⟩ :=
    (claim _ _ c d (exampleStart_start _) before after).advances here
  simp only [firstEvent, there, Option.map_some, Option.some.injEq, Prod.mk.injEq] at pending
  simp only [Prod.mk.injEq] at seen
  have stays := advances.final (by rw [seen.1]; rfl)
  rw [pending.1, seen.1] at stays
  cases stays

end SaasTemplate.Outbox
