import SaasTemplate.Isolation.Alone
import SaasTemplate.Outbox.Observations

/-! # Only live tokens are delivered

What the phases of a worker say of its event and of what it has read. In every run in which
an invite that was read expired is still found expired by the statement that marks it, the
sink is given the token of an invite that was live when it was read, and a refusal ends the
event as its kind has it.
-/

set_option linter.unusedSectionVars false

namespace SaasTemplate.Outbox

open SaasTemplate.Isolation SaasTemplate.Isolation.Prog

open SaasTemplate.Tenancy (Invite)

variable {τ : Type} [DecidableEq τ] {text : TextOps} {t u : τ} {s : Statement} {db db' : Db τ}
  {id : Uuid}

/-! ## The event of a worker -/

/-- What `t` has written of the event leaves it in its status. -/
def StatusKept (t : τ) (id : Uuid) (db : Db τ) : Prop :=
  ∀ f, db.events.holder id = some t → db.events.pending id = some f →
    ∃ e, db.events.committed id = some e ∧ e.status = f.status

/-- The status of an event with this outcome. -/
def Ends (error : Option String) (status : OutboxStatus) : Prop :=
  match error with
  | none => status = .processed
  | some _ => status = .pending ∨ status = .failed

/-- `t` has written the event with this outcome, and has yet to commit it. -/
def OutcomeWritten (t : τ) (id : Uuid) (error : Option String) (db : Db τ) : Prop :=
  db.events.holder id = some t ∧ ∃ f, db.events.pending id = some f ∧ Ends error f.status

/-- The statements that write no new status. -/
def Statement.keepsStatus : Statement → Bool
  | .insertEvent _ _ => false
  | .flushEvent _ _ loaded assigned => assigned.status == loaded.status
  | _ => true

theorem Case.respects (case : Case t s db db') : db.events.Respects t db'.events := by
  cases case with
  | quiet | insertDeliveryClaim | clearDeliveryClaim => exact .refl t _
  | insertEvent _ _ _ _ free => exact Table.respects_put free
  | lockEvent _ _ _ _ free => exact Table.respects_put free
  | flushEvent _ _ _ _ _ _ _ _ free => exact Table.respects_put free
  | commit => exact Table.respects_commit t _
  | rollback => exact Table.respects_rollback t _

theorem StatusKept.view (h : StatusKept t id db) {f : OutboxEvent}
    (seen : db.events.view t id = some f) :
    ∃ e, db.events.committed id = some e ∧ e.status = f.status := by
  by_cases held : db.events.holder id = some t
  · exact h f held ((Table.view_of_held held).symm.trans seen)
  · exact ⟨f, (Table.view_of_not_held held).symm.trans seen, rfl⟩

theorem StatusKept.put (h : StatusKept t id db) {j : Uuid} {f : OutboxEvent}
    (kept : j = id → ∃ e, db.events.committed id = some e ∧ e.status = f.status) :
    StatusKept t id { db with events := db.events.put t j (some f) } := by
  intro g held prepared
  simp only [Table.committed_put]
  by_cases same : id = j
  · subst same
    simp only [Table.pending_put_same, Option.some.injEq] at prepared
    exact prepared ▸ kept rfl
  · exact h g (by simpa [Table.holder_put_other same] using held)
      (by simpa [Table.pending_put_other same] using prepared)

theorem Case.statusKept (case : Case t s db db') (keeps : s.keepsStatus = true)
    (h : StatusKept t id db) : StatusKept t id db' := by
  cases case with
  | quiet | insertDeliveryClaim | clearDeliveryClaim => exact h
  | insertEvent _ _ is => simp [is, Statement.keepsStatus] at keeps
  | lockEvent j event _ seen => exact h.put fun same => h.view (same ▸ seen)
  | flushEvent writer j loaded assigned current is _ seen =>
      subst is
      simp only [Statement.keepsStatus, beq_iff_eq] at keeps
      refine h.put fun same => ?_
      obtain ⟨e, here, status⟩ := h.view (same ▸ seen)
      exact ⟨e, here, by simp [OutboxEvent.flush, keeps, status]⟩
  | commit =>
      exact fun f held => absurd (Table.holder_commit_eq_some held).1
        (Table.holder_commit_eq_some held).2
  | rollback =>
      exact fun f held => absurd (Table.holder_rollback_eq_some held).1
        (Table.holder_rollback_eq_some held).2

theorem StatusKept.stays (h : StatusKept t id db) (keeps : db.events.Keeps t db'.events) :
    StatusKept t id db' := by
  intro f held prepared
  obtain ⟨before, same⟩ := keeps.cell_of_held held
  rw [Table.committed_of_cell same]
  exact h f before ((Table.pending_of_cell same).symm.trans prepared)

theorem OutcomeWritten.stays {error : Option String} (h : OutcomeWritten t id error db)
    (keeps : db.events.Keeps t db'.events) : OutcomeWritten t id error db' := by
  obtain ⟨held, f, prepared, ends⟩ := h
  have same := keeps.cell held
  exact ⟨(Table.holder_of_cell same).trans held, f, (Table.pending_of_cell same).trans prepared,
    ends⟩

theorem IsOutcomeOf.ends {error : Option String} {event assigned : OutboxEvent}
    (h : IsOutcomeOf error event assigned) : Ends error assigned.status := by
  obtain ⟨now, rfl⟩ := h
  cases error with
  | none => exact event.status_markedProcessed now
  | some error =>
      simp only [Ends, event.status_markedFailedAttempt]
      split
      · exact .inr rfl
      · exact .inl rfl

theorem Ends.left {error : Option String} {status : OutboxStatus} (h : Ends error status) :
    status ≠ .processing := by
  rintro rfl
  cases error <;> simp [Ends] at h

theorem outcomeWritten_of_flush {writer : Writer} {event assigned : OutboxEvent}
    {error : Option String} {a : Unit} (processing : event.status = .processing)
    (outcome : IsOutcomeOf error event assigned)
    (executed : (machine τ text).exec t (.flushEvent writer id event assigned) db =
      some (.ok a, db')) : OutcomeWritten t id error db' := by
  have left : assigned.status ≠ event.status := processing ▸ outcome.ends.left
  change exec text t (.flushEvent writer id event assigned) db = _ at executed
  obtain ⟨current, rfl⟩ := exec_flushEvent (fun same => left (by rw [same])) executed
  have status : (event.flush db.clock assigned current).status = assigned.status :=
    written_of_ne left
  exact ⟨by simp, _, by simp, status ▸ outcome.ends⟩

/-! ## What the phases say -/

section Phases

variable (text) (ops : DeliveryOps)

/-- What was read of an event that is refused. -/
def Settles (error : Option String) (o : Observation) : Prop :=
  ∃ event, o.event = some event ∧
    ∀ refusal, ops.verdict text event o.invite o.expired = .error refusal → error = refusal.error

/-- What was read when `rawToken` is delivered: an invite that was pending, not expired at
    that time, and whose hash is that of the token. -/
structure Live (o : Observation) (invite : Invite) (rawToken : String) : Prop where
  read : o.invite = some invite
  pending : invite.status = .pending
  unexpired : invite.isExpiredAt o.readAt = false
  hash : text.sha256 rawToken = invite.tokenHash
  verdict : ∃ event, o.event = some event ∧
    ops.verdict text event (some invite) o.expired = .ok rawToken

def IsClaimed (event : OutboxEvent) (payload : InviteOutboxPayload) (o : Observation) : Prop :=
  o.event = some event ∧ inviteOutboxEventTypes.contains event.eventType = true ∧
    ops.parseInviteOutboxPayload event.payload = some payload

def DeliveryPhase.Holds (id : Uuid) (t : τ) (w : WatchedDb τ) : DeliveryPhase → Prop
  | .claiming | .skipped => StatusKept t id w.store
  | .claimed event payload => StatusKept t id w.store ∧ IsClaimed ops event payload (w.seen t)
  | .found event payload invite => StatusKept t id w.store ∧
      IsClaimed ops event payload (w.seen t) ∧ (w.seen t).invite = some invite ∧
      invite.status = .pending
  | .sending invite rawToken => StatusKept t id w.store ∧ Live text ops (w.seen t) invite rawToken
  | .settled error => StatusKept t id w.store ∧ Settles text ops error (w.seen t)
  | .loaded error event => StatusKept t id w.store ∧ Settles text ops error (w.seen t) ∧
      event.status = .processing
  | .reported error => OutcomeWritten t id error w.store ∧ Settles text ops error (w.seen t)
  | .ended => True

end Phases

/-- A refusal of what was read settles the event. -/
theorem Settles.of_refusal {ops : DeliveryOps} {o : Observation} {event : OutboxEvent}
    {refusal : Refusal} (read : o.event = some event)
    (is : ops.verdict text event o.invite o.expired = .error refusal) :
    Settles text ops refusal.error o := by
  refine ⟨event, read, fun other same => ?_⟩
  rw [is] at same
  cases same
  rfl

/-- What is delivered is not refused. -/
theorem Live.settles {ops : DeliveryOps} {o : Observation} {invite : Invite} {rawToken : String}
    (h : Live text ops o invite rawToken) (error : Option String) : Settles text ops error o := by
  obtain ⟨event, read, verdict⟩ := h.verdict
  refine ⟨event, read, fun refusal is => ?_⟩
  rw [h.read, verdict] at is
  cases is

section Stable

variable {ops : DeliveryOps} {φ : DeliveryPhase} {w w' : WatchedDb τ}

/-- The phase of a worker survives the steps of the others. -/
theorem DeliveryPhase.Holds.stays (h : φ.Holds text ops id t w)
    (keeps : w.store.events.Keeps t w'.store.events) (same : w'.seen t = w.seen t) :
    φ.Holds text ops id t w' := by
  cases φ <;> simp only [DeliveryPhase.Holds, same] at h ⊢
  case claiming | skipped => exact h.stays keeps
  case claimed | found | sending | settled | loaded => exact ⟨h.1.stays keeps, h.2⟩
  case reported => exact ⟨h.1.stays keeps, h.2⟩

/-! ### Reading -/

section Reading

variable {event : OutboxEvent} {payload : InviteOutboxPayload} {invite : Invite}

theorem holds_ofEvent (kept : StatusKept t id w.store) (read : (w.seen t).event = some event) :
    (DeliveryPhase.ofEvent ops event).Holds text ops id t w := by
  unfold DeliveryPhase.ofEvent
  split
  · exact kept
  split
  · rename_i other
    have refused : ops.verdict text event (w.seen t).invite (w.seen t).expired =
        .error .eventType := by rw [DeliveryOps.verdict, if_pos other]
    exact ⟨kept, .of_refusal read refused⟩
  · rename_i inviteEvent
    cases parsed : ops.parseInviteOutboxPayload event.payload with
    | some payload => exact ⟨kept, read, not_not.mp inviteEvent, parsed⟩
    | none =>
        have refused : ops.verdict text event (w.seen t).invite (w.seen t).expired =
            .error .malformedPayload := by rw [DeliveryOps.verdict, if_neg inviteEvent, parsed]
        exact ⟨kept, .of_refusal read refused⟩

/-- The verdict on a valid invite event. -/
theorem IsClaimed.verdict {o : Observation} (h : IsClaimed ops event payload o) (text : TextOps)
    (invite : Invite) (expired : Bool) : ops.verdict text event (some invite) expired =
      if invite.status ≠ .pending then .error .notPending
      else if expired then .error .expired
      else if ¬ops.inviteDeliveryEnabled then .error .deliveryDisabled
      else match ops.decryptToken payload.encryptedRawToken with
        | none => .error .decryption
        | some rawToken =>
          if text.sha256 rawToken ≠ invite.tokenHash then .error .hashMismatch
          else .ok rawToken := by
  obtain ⟨-, inviteEvent, parsed⟩ := h
  unfold DeliveryOps.verdict
  split
  · rename_i other
    exact absurd inviteEvent other
  · split
    · rename_i none
      cases parsed.symm.trans none
    · rename_i some_payload
      cases parsed.symm.trans some_payload
      rfl

theorem holds_ofInvite {found : Option Invite} (kept : StatusKept t id w.store)
    (claimed : IsClaimed ops event payload (w.seen t)) (read : (w.seen t).invite = found) :
    (DeliveryPhase.ofInvite event payload found).Holds text ops id t w := by
  cases found with
  | none =>
      have refused : ops.verdict text event (w.seen t).invite (w.seen t).expired =
          .error .inviteNotFound := by
        rw [read, DeliveryOps.verdict, if_neg (not_not.mpr claimed.2.1), claimed.2.2]
      exact ⟨kept, .of_refusal claimed.1 refused⟩
  | some invite =>
      simp only [DeliveryPhase.ofInvite]
      split
      · rename_i left
        have refused : ops.verdict text event (w.seen t).invite (w.seen t).expired =
            .error .notPending := by rw [read, claimed.verdict, if_pos left]
        exact ⟨kept, .of_refusal claimed.1 refused⟩
      · rename_i pending
        exact ⟨kept, claimed, read, not_not.mp pending⟩

theorem holds_ofExpiry {expired : Bool} (kept : StatusKept t id w.store)
    (claimed : IsClaimed ops event payload (w.seen t)) (read : (w.seen t).invite = some invite)
    (pending : invite.status = .pending) (marked : (w.seen t).expired = expired)
    (unexpired : expired = false → invite.isExpiredAt (w.seen t).readAt = false) :
    (DeliveryPhase.ofExpiry ops text payload invite expired).Holds text ops id t w := by
  have settles {refusal : Refusal}
      (is : ops.verdict text event (some invite) expired = .error refusal) :
      StatusKept t id w.store ∧ Settles text ops refusal.error (w.seen t) :=
    ⟨kept, .of_refusal claimed.1 (by rw [read, marked, is])⟩
  have verdict := claimed.verdict text invite expired
  rw [if_neg (not_not.mpr pending)] at verdict
  unfold DeliveryPhase.ofExpiry
  split
  · rename_i late
    rw [if_pos late] at verdict
    exact settles verdict
  rename_i open_
  rw [if_neg open_] at verdict
  split
  · rename_i disabled
    rw [if_pos disabled] at verdict
    exact settles verdict
  rename_i enabled
  rw [if_neg enabled] at verdict
  cases ops.keyError with
  | some error => trivial
  | none =>
      cases decrypted : ops.decryptToken payload.encryptedRawToken with
      | none =>
          rw [decrypted] at verdict
          exact settles verdict
      | some rawToken =>
          simp only [decrypted] at verdict
          dsimp only
          split
          · rename_i mismatch
            rw [if_pos mismatch] at verdict
            exact settles verdict
          · rename_i hash
            rw [if_neg hash] at verdict
            exact ⟨kept, read, pending, unexpired (by simpa using open_), not_not.mp hash, event,
              claimed.1, marked ▸ verdict⟩

end Reading

/-! ### Steps of the worker -/

/-- The statement that marks an expired invite still finds what was expired when it was read. -/
def ExpiryStill (t : τ) (s : Statement) (w : WatchedDb τ) : Prop :=
  ∀ inviteId organisation now, s = .expirePendingInvite inviteId organisation now →
    ∀ invite, (w.seen t).invite = some invite → invite.isExpiredAt (w.seen t).readAt = true →
      ∃ row, w.store.invites.view t inviteId = some row ∧ row.organisationId = organisation ∧
        row.isPending = true ∧ row.isExpiredAt now = true

/-- An invite that the statement does not mark was not expired when it was read. -/
theorem unexpired_of_unmarked {inviteId organisation : Uuid} {now : Time} {found : Option Invite}
    {invite : Invite} (ok : ExpiryStill t (.expirePendingInvite inviteId organisation now) w)
    (executed : exec text t (.expirePendingInvite inviteId organisation now) w.store =
      some (.ok found, db'))
    (read : (w.seen t).invite = some invite) (unmarked : found.isSome = false) :
    invite.isExpiredAt (w.seen t).readAt = false := by
  by_contra late
  obtain ⟨row, seen, inside, pending, expired⟩ :=
    ok inviteId organisation now rfl invite read (by simpa using late)
  obtain ⟨⟨out, T⟩, updated, is⟩ := Option.map_eq_some_iff.mp executed
  cases is
  rcases Table.update_cases updated with ⟨-, failed | ⟨-, missed⟩⟩ | ⟨i, j, -, -, -, -, marked⟩
  · cases failed
  · simp [seen, Tenancy.updateIf, inside, pending, expired] at missed
  · cases marked
    cases unmarked

theorem DeliveryPhase.Holds.exec {ψ : DeliveryPhase} {r : Except AppError (Answer s)}
    (h : φ.Holds text ops id t w) (next : DeliveryPhase.next ops text id φ s r = some ψ)
    (ok : ExpiryStill t s w) (moved : (watchedMachine τ text).exec t s w = some (r, w')) :
    ψ.Holds text ops id t w' := by
  obtain ⟨executed, seen⟩ := Machine.watched_exec moved
  have kept : s.keepsStatus = true → StatusKept t id w.store → StatusKept t id w'.store :=
    (exec_case executed).statusKept
  have now_ : w'.seen t = (w.seen t).note w.store s r := by simp [seen]
  unfold DeliveryPhase.next at next
  split at next
  -- the arms of `next`, in their order
  case h_1 => cases next; trivial
  case h_2 =>
    obtain ⟨stays, live⟩ := h
    split at next
    · split at next <;> cases next <;> exact ⟨kept rfl stays, now_ ▸ live.settles _⟩
    · cases next
  case h_3 => cases next; trivial
  case h_4 | h_5 => cases next; exact kept rfl h
  case h_6 => cases next; exact ⟨kept rfl h.1, now_ ▸ h.2⟩
  case h_7 => cases next; exact ⟨kept rfl h.1, now_ ▸ h.2⟩
  case h_8 event =>
    cases next
    cases event with
    | none => exact kept rfl h
    | some event => exact holds_ofEvent (kept rfl h) (by rw [now_]; rfl)
  case h_9 =>
    split at next
    · rename_i same
      cases next
      exact kept (by simpa [Statement.keepsStatus] using same) h
    · cases next
  case h_10 | h_11 | h_12 | h_13 => cases next; exact kept rfl h
  case h_14 =>
    cases next
    exact holds_ofInvite (kept rfl h.1) (by rw [now_]; exact h.2) (by rw [now_]; rfl)
  case h_15 => cases next; exact ⟨kept rfl h.1, now_ ▸ h.2⟩
  case h_16 =>
    cases next
    obtain ⟨stays, claimed, read, pending⟩ := h
    refine holds_ofExpiry (kept rfl stays) (by rw [now_]; exact claimed) (by rw [now_]; exact read)
      pending (by rw [now_]; rfl) fun unmarked => ?_
    rw [now_]
    exact unexpired_of_unmarked ok executed read unmarked
  case h_17 event =>
    cases next
    obtain ⟨stays, settles⟩ := h
    cases event with
    | none => exact ⟨kept rfl stays, now_ ▸ settles⟩
    | some event =>
        refine ⟨kept rfl stays, now_ ▸ settles, ?_⟩
        obtain ⟨-, matched⟩ := Option.filter_eq_some_iff.mp
          (Except.ok.inj (Prod.mk.inj (Option.some.inj executed)).1)
        simp only [Bool.and_eq_true, beq_iff_eq] at matched
        exact matched.1
  case h_18 | h_19 => cases next; exact ⟨kept rfl h.1, now_ ▸ h.2⟩
  case h_20 =>
    split at next
    · rename_i own
      obtain ⟨rfl, rfl, outcome⟩ := own
      cases next
      exact ⟨outcomeWritten_of_flush h.2.2 outcome executed, now_ ▸ h.2.1⟩
    · cases next
  case h_21 => cases next; trivial
  case h_22 => cases next

/-- A statement that fails shows nothing; a sink that raises is an outcome. -/
theorem DeliveryPhase.Holds.fails {ψ : DeliveryPhase} {e : AppError}
    (h : φ.Holds text ops id t w) (next : DeliveryPhase.next ops text id φ s (.error e) = some ψ) :
    ψ.Holds text ops id t w := by
  unfold DeliveryPhase.next at next
  split at next
  case h_2 =>
    obtain ⟨stays, live⟩ := h
    split at next
    · cases next
      exact ⟨stays, live.settles _⟩
    · cases next
  case h_1 | h_3 | h_21 =>
    cases next
    trivial
  all_goals contradiction

end Stable

/-! ## Runs -/

section Runs

variable {op : τ → OutboxOp} {start c d : Config τ Statement Answer AppError (WatchedDb τ) Unit}
  {p : Tx Unit}

/-- The phases of a client; one that is no worker delivers nothing and reports nothing. -/
noncomputable def OutboxOp.automaton (text : TextOps) :
    OutboxOp → Automaton DeliveryPhase Statement Answer AppError
  | .work id _ ops => DeliveryPhase.next ops text id
  | _ => fun φ s _ => if s.isUnclaiming then some φ else none

def OutboxOp.HoldsIn (text : TextOps) (t : τ) (φ : DeliveryPhase) (w : WatchedDb τ) :
    OutboxOp → Prop
  | .work id _ ops => φ.Holds text ops id t w
  | _ => True

theorem OutboxOp.follows (op : OutboxOp) :
    (op.program text).Follows (op.automaton text) (fun _ _ => True) .claiming := by
  cases op with
  | work id claimToken ops => exact processOutboxEvent_follows claimToken
  | publish | dispatch | recover =>
      exact ((OutboxOp.program_only _ rfl).follows fun s unclaiming _ => if_pos unclaiming).mono
        fun _ _ _ => trivial

/-- The steps of others leave the phases of a client. -/
theorem OutboxOp.HoldsIn.stays {op : OutboxOp} {φ : DeliveryPhase} {w w' : WatchedDb τ}
    (h : op.HoldsIn text t φ w) (keeps : w.store.events.Keeps t w'.store.events)
    (same : w'.seen t = w.seen t) : op.HoldsIn text t φ w' := by
  cases op with
  | work id claimToken ops => exact DeliveryPhase.Holds.stays h keeps same
  | _ => trivial

theorem workers_phased : Phased (α := Unit) (watchedMachine τ text) ExpiryStill
    (fun t => (op t).automaton text) (fun _ => True)
    (fun t φ c => (op t).HoldsIn text t φ c.db) where
  exec {c t s k r db' φ ψ} _ running ok executed holds next := by
    obtain ⟨stored, seen⟩ := Machine.watched_exec executed
    refine ⟨⟨trivial, fun u χ other held => held.stays ((exec_case stored).respects.keeps other)
      (by rw [seen]; exact Function.update_of_ne other _ _)⟩, ?_⟩
    cases is : op t with
    | work id claimToken ops =>
        rw [is] at holds next
        exact DeliveryPhase.Holds.exec holds next ok executed
    | _ => trivial
  fault {c t s k e φ ψ} _ running fallible holds next := by
    refine ⟨⟨trivial, fun u χ other held => held⟩, ?_⟩
    cases is : op t with
    | work id claimToken ops =>
        rw [is] at holds next
        exact DeliveryPhase.Holds.fails holds next
    | _ => trivial
  crash {c t s k} _ running :=
    ⟨trivial, fun u χ other held => held.stays ((Table.respects_rollback t _).keeps other) rfl⟩
  env {c db'} _ moved := by
    obtain ⟨store, ⟨clock, invites, rfl⟩, rfl⟩ := moved
    exact ⟨trivial, fun u χ held => held.stays (.refl u _) rfl⟩

/-- Clients that are about to run their operations, outside every transaction. -/
structure WatchStart (text : TextOps) (op : τ → OutboxOp)
    (c : Config τ Statement Answer AppError (WatchedDb τ) Unit) : Prop where
  unlocked : ∀ id, c.db.store.events.holder id = none
  operations : ∀ t, c.run t = some ((op t).program text)

/-- In a run every client is in a phase of which what it says holds. -/
theorem WatchStart.phases (h : WatchStart text op start)
    (run : (watchedMachine τ text).Reaches ExpiryStill start c) (running : c.run t = some p) :
    ∃ φ, p.Follows ((op t).automaton text) (fun _ _ => True) φ ∧ (op t).HoldsIn text t φ c.db := by
  refine (workers_phased.reaches trivial (fun u q begins => ?_) run).2 t p running
  cases Option.some.inj ((h.operations u).symm.trans begins)
  refine ⟨.claiming, (op u).follows, ?_⟩
  cases op u with
  | work id claimToken ops => exact fun f held => by simp [h.unlocked id] at held
  | _ => trivial

theorem DeliveryPhase.of_deliver {ops : DeliveryOps} {φ ψ : DeliveryPhase} {eventId : Uuid}
    {invite : Invite} {rawToken : String}
    (next : DeliveryPhase.next ops text id φ (.deliver eventId invite rawToken) (.ok ()) = some ψ) :
    φ = .sending invite rawToken ∧ eventId = id := by
  cases φ with
  | sending other token =>
      simp only [DeliveryPhase.next] at next
      split at next
      · rename_i same
        exact ⟨by rw [same.2.1, same.2.2], same.1⟩
      · cases next
  | _ => cases next

/-- Who hands a token to the sink has read it live. -/
theorem WatchStart.live (h : WatchStart text op start)
    (run : (watchedMachine τ text).Reaches ExpiryStill start c) {eventId : Uuid} {invite : Invite}
    {rawToken : String} {k : Except AppError Unit → Tx Unit}
    (running : c.run t = some (.call (.deliver eventId invite rawToken) k)) :
    ∃ claimToken ops, op t = .work eventId claimToken ops ∧
      Live text ops (c.db.seen t) invite rawToken := by
  obtain ⟨φ, follows, holds⟩ := h.phases run running
  obtain ⟨ψ, next, -⟩ := follows (.ok ())
  cases is : op t with
  | work id claimToken ops =>
      rw [is] at next holds
      obtain ⟨rfl, rfl⟩ := DeliveryPhase.of_deliver next
      exact ⟨claimToken, ops, rfl, holds.2⟩
  | publish | dispatch | recover =>
      rw [is] at next
      cases next

/-- The step with which a worker takes its event out of processing is the commit of its
    outcome. -/
theorem DeliveryPhase.Holds.reports {ops : DeliveryOps} {φ ψ : DeliveryPhase} {w : WatchedDb τ}
    (h : φ.Holds text ops id t w)
    (next : DeliveryPhase.next ops text id φ .commit (.ok ()) = some ψ) {e f : OutboxEvent}
    (here : w.store.events.committed id = some e)
    (after : (w.store.commit t).events.committed id = some f) (left : e.status ≠ f.status) :
    ∃ error, Settles text ops error (w.seen t) ∧ Ends error f.status := by
  have untouched (kept : StatusKept t id w.store) : False := by
    obtain ⟨e', same, status⟩ := kept.view (by simpa [Db.commit] using after)
    cases here.symm.trans same
    exact left status
  cases φ with
  | reported error =>
      obtain ⟨⟨held, g, prepared, ends⟩, settles⟩ := h
      have seen : w.store.events.view t id = some f := by simpa [Db.commit] using after
      cases ((Table.view_of_held held).trans prepared).symm.trans seen
      exact ⟨error, settles, ends⟩
  | claiming | skipped => exact (untouched h).elim
  | sending | settled => exact (untouched h.1).elim
  | claimed | found | loaded | ended => cases next

theorem Case.committed (case : Case t s db db') (open_ : s ≠ .commit) (id : Uuid) :
    db'.events.committed id = db.events.committed id := by
  cases case with
  | commit is => exact absurd is open_
  | _ => simp [Db.rollback]

/-- The event leaves processing by the hand of its worker as the refusal has it. -/
theorem WatchStart.ends (h : WatchStart text op start)
    (run : (watchedMachine τ text).Reaches ExpiryStill start c)
    (step : (watchedMachine τ text).Step ExpiryStill c d) {claimToken : String} {ops : DeliveryOps}
    (is : op t = .work id claimToken ops) (moved : d.run t ≠ c.run t) {e f : OutboxEvent}
    (here : c.db.store.events.committed id = some e)
    (after : d.db.store.events.committed id = some f) (left : e.status ≠ f.status) :
    ∃ error, Settles text ops error (c.db.seen t) ∧ Ends error f.status := by
  have same (unmoved : d.db.store.events.committed id = c.db.store.events.committed id) :
      False := by
    rw [unmoved, here] at after
    cases after
    exact left rfl
  have running : c.Running t := by
    by_contra idle
    exact moved (step.run_of_not_running idle)
  obtain ⟨s, k, running⟩ := running
  rcases step.of_moved running moved with ⟨r, -, executed, -⟩ | ⟨e', -, unmoved, -⟩ | ⟨rolled, -⟩
  · obtain ⟨stored, -⟩ := Machine.watched_exec executed
    by_cases commits : s = .commit
    · subst commits
      obtain ⟨φ, follows, holds⟩ := h.phases run running
      obtain ⟨ψ, next, -⟩ := follows (.ok ())
      rw [is] at next holds
      rw [(exec_commit stored).2] at after
      exact DeliveryPhase.Holds.reports holds next here after left
    · exact (same ((exec_case stored).committed commits id)).elim
  · exact (same (by rw [unmoved])).elim
  · exact (same (by simp [rolled, watchedMachine, Machine.watched, machine, Db.rollback])).elim

end Runs

/-! ## The report of a worker that is left alone -/

theorem update_unindexed {T : Table Uuid τ OutboxEvent} {f : OutboxEvent → OutboxEvent}
    {e : OutboxEvent} (seen : T.view t id = some e) (free : T.free t id = true) :
    T.update Table.unindexed AppError.integrityError t id (fun e => some (f e)) =
      some (.ok (some (f e)), T.put t id (some (f e))) := by
  simp [Table.update, seen, free, Table.waits, Table.collides, Table.clashes, Table.unindexed]

theorem reportOutcome_alone {writer : Writer} {e : OutboxEvent} {outcome : Time → OutboxEvent}
    {claim : OutboxDeliveryClaim} (seen : db.events.view t id = some e)
    (claimed : db.claims.view t id = some claim) (free : db.events.free t id = true)
    (unlocked : db.claims.free t id = true) (left : (outcome db.clock).status ≠ e.status) :
    ∃ db', (machine τ text).solo t (reportOutcome writer id e outcome) db = some (.ok (), db') ∧
      ∃ f, db'.events.view t id = some f ∧ f.status = (outcome db.clock).status := by
  let cleared : Db τ := { db with claims := db.claims.put t id none }
  let flushed : Db τ := { cleared with
    events := db.events.put t id (some (e.flush db.clock (outcome db.clock) e)) }
  have clears : (machine τ text).exec t (.clearDeliveryClaim id) db = some (.ok (), cleared) := by
    simp [machine, exec, Table.delete, claimed, unlocked, Option.filter, cleared]
  have flushes : (machine τ text).exec t (.flushEvent writer id e (outcome db.clock)) cleared =
      some (.ok (), flushed) := by
    have changed : outcome db.clock ≠ e := fun same => left (by rw [same])
    simp [machine, exec, flushEvent, if_neg changed, update_unindexed seen free, cleared, flushed]
  have ran : (machine τ text).solo t (reportOutcome writer id e outcome) db =
      some (.ok (), flushed) := by
    rw [reportOutcome, Machine.solo_bind_ok (Machine.solo_stmt rfl),
      Machine.solo_bind_ok (Machine.solo_stmt clears)]
    exact Machine.solo_stmt flushes
  exact ⟨flushed, ran, e.flush db.clock (outcome db.clock) e, Table.view_put_same ..,
    written_of_ne left⟩

/-- As long as its claim is there, the report of a worker ends the event. -/
theorem applyResult_alone {claimToken : String} {error : Option String} {e : OutboxEvent}
    {claim : OutboxDeliveryClaim} (seen : db.events.view t id = some e)
    (processing : e.status = .processing) (claimed : db.claims.view t id = some claim)
    (own : claim.claimToken = claimToken) (free : db.events.free t id = true)
    (unlocked : db.claims.free t id = true) :
    ∃ db', (machine τ text).solo t (applyResult id claimToken error.isNone error) db =
      some (.ok (), db') ∧ ∃ f, db'.events.committed id = some f ∧ Ends error f.status := by
  have found : (machine τ text).exec t (.deliveryClaimedEvent id claimToken) db =
      some (.ok (some e), db) := by
    simp [machine, exec, read, seen, processing, claimed, own, Option.filter]
  have reports (writer : Writer) (outcome : Time → OutboxEvent)
      (is : IsOutcomeOf error e (outcome db.clock)) :
      ∃ db', (machine τ text).solo t (reportOutcome writer id e outcome) db = some (.ok (), db') ∧
        ∃ f, db'.events.view t id = some f ∧ Ends error f.status := by
    have changed : (outcome db.clock).status ≠ e.status := processing ▸ is.ends.left
    obtain ⟨db', ran, f, after, status⟩ := reportOutcome_alone seen claimed free unlocked changed
    exact ⟨db', ran, f, after, status ▸ is.ends⟩
  have commits (db' : Db τ) {f : OutboxEvent} (after : db'.events.view t id = some f) :
      (db'.commit t).events.committed id = some f := by simpa [Db.commit] using after
  have ends_ : ∀ db : Db τ, ∃ x, (machine τ text).exec t .commit db = some (.ok x, db.commit t) :=
    fun _ => ⟨(), rfl⟩
  have undoes : ∀ db : Db τ, ∃ x,
      (machine τ text).exec t .rollback db = some (.ok x, db.rollback t) := fun _ => ⟨(), rfl⟩
  rw [applyResult, inTransaction, Machine.solo_transaction ends_ undoes,
    Machine.solo_bind_ok (Machine.solo_stmt found)]
  cases error with
  | none =>
      obtain ⟨db', ran, f, after, ends⟩ := reports (.applyResult claimToken)
        (fun now => e.markedProcessed now) ⟨db.clock, rfl⟩
      exact ⟨db'.commit t, by simp [markProcessed, ran], f, commits db' after, ends⟩
  | some error =>
      obtain ⟨db', ran, f, after, ends⟩ := reports (.applyResult claimToken)
        (fun now => e.markedFailedAttempt now error) ⟨db.clock, rfl⟩
      exact ⟨db'.commit t, by simp [markFailedAttempt, ran], f, commits db' after, ends⟩

/-- As long as an invite that was read expired is still found so by the statement that marks
    it: a token goes to the sink only if the invite was live when it was read, an event that
    its worker takes out of processing ends as the refusal has it, and the report of a worker
    that still has its claim does so. -/
theorem only_live_tokens_delivered {op : τ → OutboxOp}
    {start c : Config τ Statement Answer AppError (WatchedDb τ) Unit} (h : WatchStart text op start)
    (run : (watchedMachine τ text).Reaches ExpiryStill start c) :
    (∀ t eventId invite rawToken k, c.run t = some (.call (.deliver eventId invite rawToken) k) →
      ∃ claimToken ops, op t = .work eventId claimToken ops ∧
        Live text ops (c.db.seen t) invite rawToken) ∧
    (∀ t id claimToken ops d e f, op t = .work id claimToken ops →
      (watchedMachine τ text).Step ExpiryStill c d → d.run t ≠ c.run t →
      c.db.store.events.committed id = some e → d.db.store.events.committed id = some f →
      e.status ≠ f.status → ∃ event, (c.db.seen t).event = some event ∧
        ∀ refusal, ops.verdict text event (c.db.seen t).invite (c.db.seen t).expired =
          .error refusal → Ends refusal.error f.status) ∧
    ∀ t id claimToken error e claim, c.db.store.events.view t id = some e →
      e.status = .processing → c.db.store.claims.view t id = some claim →
      claim.claimToken = claimToken → c.db.store.events.free t id = true →
      c.db.store.claims.free t id = true →
      ∃ db', (machine τ text).solo t (applyResult id claimToken error.isNone error) c.db.store =
        some (.ok (), db') ∧ ∃ f, db'.events.committed id = some f ∧ Ends error f.status := by
  refine ⟨fun t eventId invite rawToken k => h.live run, ?_,
    fun t id claimToken error e claim seen => applyResult_alone seen⟩
  intro t id claimToken ops d e f is step moved here after left
  obtain ⟨error, ⟨event, read, settles⟩, ends⟩ := h.ends run step is moved here after left
  exact ⟨event, read, fun refusal refused => settles refusal refused ▸ ends⟩

/-! ## One worker -/

/-- A worker for the delivery of invite 2. -/
def soleWorker : Unit → OutboxOp := fun _ => .work 1 "claim" inviteOps

/-- Its event is in processing, and the invite expires at 50. -/
def soleStart (clock : Time) : Config Unit Statement Answer AppError (WatchedDb Unit) Unit :=
  ⟨⟨{ inviteDb Unit with
      events := .ofRows [(1, { exampleEvent with
        eventType := "invite.created"
        payload := .dict [("encrypted_raw_token", .text "token")]
        status := .processing
        lockedAt := some 0 })]
      invites := .ofRows [(2, { exampleInvite with expiresAt := some 50 })]
      clock := clock }, fun _ => .nothing⟩, fun t => some ((soleWorker t).program plainText)⟩

theorem soleStart_start (clock : Time) : WatchStart plainText soleWorker (soleStart clock) :=
  ⟨Table.holder_ofRows _, fun _ => rfl⟩

/-- The token that the worker hands to the sink next, and whether its invite was read expired. -/
def atSink (c : Config Unit Statement Answer AppError (WatchedDb Unit) Unit) :
    Option (String × Bool) :=
  match c.run () with
  | some (.call (.deliver _ invite rawToken) _) =>
      some (rawToken, invite.isExpiredAt (c.db.seen ()).readAt)
  | _ => none

def expiryStill (t : Unit) (s : Statement) (w : WatchedDb Unit) : Bool :=
  match s with
  | .expirePendingInvite inviteId organisation now => (w.seen t).invite.all fun invite =>
      !invite.isExpiredAt (w.seen t).readAt || (w.store.invites.view t inviteId).any fun row =>
        row.organisationId == organisation && row.isPending && row.isExpiredAt now
  | _ => true

theorem expiryStill_checked {t : Unit} {s : Statement} {w : WatchedDb Unit}
    (h : expiryStill t s w = true) : ExpiryStill t s w := by
  rintro inviteId organisation now rfl invite read late
  simpa [expiryStill, read, late, Option.any_eq_true, and_assoc] using h

theorem run_of_atSink {c : Config Unit Statement Answer AppError (WatchedDb Unit) Unit}
    {rawToken : String} {late : Bool} (h : atSink c = some (rawToken, late)) :
    ∃ eventId invite k, c.run () = some (.call (.deliver eventId invite rawToken) k) ∧
      invite.isExpiredAt (c.db.seen ()).readAt = late := by
  unfold atSink at h
  split at h
  · rename_i eventId invite token k running
    cases h
    exact ⟨eventId, invite, k, running, rfl⟩
  · cases h

/-- At time 0 the worker delivers. -/
theorem only_live_tokens_delivered_example :
    ∃ (c : Config Unit Statement Answer AppError (WatchedDb Unit) Unit) (invite : Invite),
      atSink c = some ("token", false) ∧
      Live plainText inviteOps (c.db.seen ()) invite "token" := by
  have played : ((watchedMachine Unit plainText).play expiryStill (List.replicate 10 ())
      (soleStart 0)).map atSink = some (some ("token", false)) := by decide
  obtain ⟨c, run, seen⟩ := Machine.run_of_play (fun _ _ _ => expiryStill_checked) played
  obtain ⟨eventId, invite, k, running, -⟩ := run_of_atSink seen
  obtain ⟨claimToken, ops, is, live⟩ :=
    (only_live_tokens_delivered (soleStart_start 0) run).1 _ _ _ _ _ running
  cases is
  exact ⟨c, invite, seen, live⟩

/-- At time 100 the worker reads the expired invite. Before it marks it, the invite is revoked:
    the statement finds nothing to mark, and the token is delivered. -/
theorem expired_token_delivered :
    ¬∀ (op : Unit → OutboxOp)
      (start c : Config Unit Statement Answer AppError (WatchedDb Unit) Unit),
      WatchStart plainText op start →
      (watchedMachine Unit plainText).Reaches (fun _ _ _ => True) start c →
      ∀ t eventId invite rawToken k, c.run t = some (.call (.deliver eventId invite rawToken) k) →
        ∃ claimToken ops, op t = .work eventId claimToken ops ∧
          Live plainText ops (c.db.seen t) invite rawToken := by
  intro claim
  let revoked (w : WatchedDb Unit) : WatchedDb Unit := { w with store := { w.store with
    invites := .ofRows [(2, { exampleInvite with expiresAt := some 50, status := .revoked })] } }
  have moves : ∀ w, (watchedMachine Unit plainText).env w (revoked w) :=
    fun w => ⟨_, ⟨w.store.clock, _, rfl⟩, rfl⟩
  have before : ((((watchedMachine Unit plainText).play (fun _ _ _ => true) (List.replicate 8 ())
      (soleStart 100)).map fun d => ⟨revoked d.db, d.run⟩).bind
        ((watchedMachine Unit plainText).play (fun _ _ _ => true) [()])).map atSink =
          some none := by decide
  have after : ((((watchedMachine Unit plainText).play (fun _ _ _ => true) (List.replicate 8 ())
      (soleStart 100)).map fun d => ⟨revoked d.db, d.run⟩).bind
        ((watchedMachine Unit plainText).play (fun _ _ _ => true) ([()] ++ [()]))).map atSink =
          some (some ("token", true)) := by decide
  obtain ⟨d, e, run, step, -, seen⟩ := Machine.step_of_play_env (fun _ _ _ _ => trivial) moves
    before after
  obtain ⟨eventId, invite, k, running, late⟩ := run_of_atSink seen
  obtain ⟨claimToken, ops, -, live⟩ := claim soleWorker _ e (soleStart_start 100) (run.tail step)
    () eventId invite "token" k running
  cases late.symm.trans live.unexpired

end SaasTemplate.Outbox
