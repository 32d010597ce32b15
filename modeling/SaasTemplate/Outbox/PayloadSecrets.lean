import SaasTemplate.Isolation.RowVersions
import SaasTemplate.Outbox.Contract
import SaasTemplate.Outbox.Scrubbers

/-! # Invite secrets leave the outbox for good

An object in a session may be older than its row, but it never lacks an entry that the row
still has, and what it is flushed with has lost the entries or leaves the payload as it is.
So a row only ever loses them, and has none in a final status.
-/

set_option linter.unusedSectionVars false

namespace SaasTemplate.Outbox

/-- The payload is an object with an entry for `key`. -/
def Payload.has (key : String) : Payload → Bool
  | .dict items => items.any (·.1 == key)
  | .other _ => false

namespace Scrubbers

open SaasTemplate.Isolation SaasTemplate.Isolation.Prog

variable {key : String} {e e' e'' : OutboxEvent}

/-- If the event is an invite event, its payload has no entry for `key`. -/
def Scrubbed (key : String) (e : OutboxEvent) : Prop :=
  inviteOutboxEventTypes.contains e.eventType = true → e.payload.has key = false

theorem Scrubbed.congr (h : Scrubbed key e) (type : e'.eventType = e.eventType)
    (payload : e'.payload = e.payload) : Scrubbed key e' := by
  intro invite
  rw [payload]
  exact h (type ▸ invite)

/-! ## Payloads -/

theorem has_setKey {marker : String} {value : JsonValue} {items : List (String × JsonValue)}
    (other : key ≠ marker) :
    (Payload.dict (setKey marker value items)).has key = (Payload.dict items).has key := by
  simp only [Payload.has, setKey]
  split
  · rw [List.any_map]
    congr 1
    funext item
    simp only [Function.comp_apply]
    split
    · rename_i here
      simp only [beq_iff_eq] at here
      simp [here]
    · rfl
  · simp [Ne.symm other]

theorem marker_ne (sensitive : key ∈ sensitiveInvitePayloadKeys) :
    key ≠ "sensitive_payload_scrubbed" ∧ key ≠ privacyErasureMarker ∧
      key ≠ privacyRetentionMarker ∧ key ∉ safePayloadKeys := by
  simp only [sensitiveInvitePayloadKeys, List.mem_cons, List.not_mem_nil, or_false] at sensitive
  rcases sensitive with rfl | rfl <;> decide

theorem has_scrubSensitive (sensitive : key ∈ sensitiveInvitePayloadKeys) (payload : Payload) :
    payload.scrubSensitive.has key = false := by
  cases payload with
  | other json => rfl
  | dict items =>
      rw [Payload.scrubSensitive, has_setKey (marker_ne sensitive).1]
      simp only [Payload.has, List.any_filter, List.any_eq_false]
      intro item _
      by_cases here : item.1 = key
      · simp [here, sensitive]
      · simp [here]

theorem has_scrubbedPayload {marker : String} (sensitive : key ∈ sensitiveInvitePayloadKeys)
    (other : key ≠ marker) (payload : Payload) : (scrubbedPayload marker payload).has key = false := by
  obtain ⟨first, -, -, unsafe_⟩ := marker_ne sensitive
  rw [scrubbedPayload, has_setKey other, has_setKey first]
  cases payload with
  | other json => rfl
  | dict items =>
      simp only [Payload.has, safeItems, List.any_filter, List.any_eq_false]
      intro item _
      by_cases here : item.1 = key
      · simp [here, unsafe_]
      · simp [here]

/-! ## Changes of an object -/

/-- A change leaves the payload alone or scrubs it, and scrubs it if the status becomes final. -/
structure Changes (key : String) (e e' : OutboxEvent) : Prop where
  type : e'.eventType = e.eventType
  payload : e'.payload = e.payload ∨ Scrubbed key e'
  status : e'.status = e.status ∨ e'.status.isFinal = false ∨ Scrubbed key e'

theorem Changes.refl (key : String) (e : OutboxEvent) : Changes key e e :=
  ⟨rfl, .inl rfl, .inl rfl⟩

theorem Changes.scrubbed (h : Changes key e e') (before : Scrubbed key e) : Scrubbed key e' := by
  rcases h.payload with same | after
  · exact before.congr h.type same
  · exact after

theorem Changes.trans (first : Changes key e e') (second : Changes key e' e'') :
    Changes key e e'' where
  type := second.type.trans first.type
  payload := by
    rcases second.payload with same | after
    · exact first.payload.imp same.trans second.scrubbed
    · exact .inr after
  status := by
    rcases second.status with same | open_ | after
    · rw [same]
      exact first.status.imp id (Or.imp id second.scrubbed)
    · exact .inr (.inl open_)
    · exact .inr (.inr after)

theorem eventType_scrub (e : OutboxEvent) :
    e.scrubSensitiveDeliveryPayload.eventType = e.eventType := by
  unfold OutboxEvent.scrubSensitiveDeliveryPayload
  split <;> rfl

theorem scrubbed_scrub (sensitive : key ∈ sensitiveInvitePayloadKeys) (e : OutboxEvent) :
    Scrubbed key e.scrubSensitiveDeliveryPayload := by
  intro invite
  rw [eventType_scrub] at invite
  rw [OutboxEvent.scrubSensitiveDeliveryPayload, if_pos invite]
  exact has_scrubSensitive sensitive e.payload

theorem changes_markedFailedAttempt (sensitive : key ∈ sensitiveInvitePayloadKeys) (now : Time)
    (error : String) (e : OutboxEvent) : Changes key e (e.markedFailedAttempt now error) := by
  simp only [OutboxEvent.markedFailedAttempt]
  split
  · exact ⟨by rw [eventType_scrub], .inr (scrubbed_scrub sensitive _),
      .inr (.inr (scrubbed_scrub sensitive _))⟩
  · exact ⟨rfl, .inl rfl, .inr (.inl rfl)⟩

theorem changes_scrubOutboxEvent (sensitive : key ∈ sensitiveInvitePayloadKeys) (e : OutboxEvent) :
    Changes key e (scrubOutboxEvent e) := by
  have scrubbed := has_scrubbedPayload sensitive (marker_ne sensitive).2.1 e.payload
  simp only [scrubOutboxEvent]
  split
  · exact ⟨rfl, .inr fun _ => scrubbed, .inr (.inr fun _ => scrubbed)⟩
  · split
    · exact ⟨rfl, .inr fun _ => scrubbed, .inl rfl⟩
    · exact ⟨rfl, .inr fun _ => scrubbed, .inl rfl⟩

/-- Every assignment of the repository, the erasure and the retention is such a change. -/
theorem Change.changes (sensitive : key ∈ sensitiveInvitePayloadKeys) (change : Change)
    (e : OutboxEvent) : Changes key e (change.apply e) := by
  cases change with
  | claimed now => exact ⟨rfl, .inl rfl, .inr (.inl rfl)⟩
  | claimedForDelivery now => exact ⟨rfl, .inl rfl, .inl rfl⟩
  | markedProcessed now =>
      exact ⟨eventType_scrub _, .inr (scrubbed_scrub sensitive _),
        .inr (.inr (scrubbed_scrub sensitive _))⟩
  | markedFailedAttempt now error => exact changes_markedFailedAttempt sensitive now error e
  | scrubOutboxEvent => exact changes_scrubOutboxEvent sensitive e
  | applyOutboxRetention =>
      exact ⟨rfl, .inr fun _ => has_scrubbedPayload sensitive (marker_ne sensitive).2.2.1 e.payload,
        .inl rfl⟩

/-! ## Versions of a row -/

/-- A later version of an event: the type is the same, and what was gone is still gone. -/
structure Later (key : String) (r s : OutboxEvent) : Prop where
  type : s.eventType = r.eventType
  scrubbed : Scrubbed key r → Scrubbed key s

theorem Later.refl (key : String) (r : OutboxEvent) : Later key r r := ⟨rfl, id⟩

theorem Later.trans {r s u : OutboxEvent} (first : Later key r s) (second : Later key s u) :
    Later key r u :=
  ⟨second.type.trans first.type, second.scrubbed ∘ first.scrubbed⟩

/-- A final event is scrubbed. -/
def FinalScrubbed (key : String) (e : OutboxEvent) : Prop :=
  e.status.isFinal = true → Scrubbed key e

/-- The flush of a changed object onto a row that is later than the object as it was loaded. -/
theorem Changes.flush {loaded assigned current : OutboxEvent} (changes : Changes key loaded assigned)
    (later : Later key loaded current) (final : FinalScrubbed key current) (clock : Time) :
    Later key current (loaded.flush clock assigned current) ∧
      Later key assigned (loaded.flush clock assigned current) ∧
      FinalScrubbed key (loaded.flush clock assigned current) := by
  have type : (loaded.flush clock assigned current).eventType = current.eventType := by
    simp [OutboxEvent.flush, changes.type]
  have typed : (loaded.flush clock assigned current).eventType = assigned.eventType := by
    rw [type, later.type, changes.type]
  have both : (Scrubbed key current → Scrubbed key (loaded.flush clock assigned current)) ∧
      (Scrubbed key assigned → Scrubbed key (loaded.flush clock assigned current)) := by
    by_cases same : assigned.payload = loaded.payload
    · have payload : (loaded.flush clock assigned current).payload = current.payload := by
        simp [OutboxEvent.flush, same]
      refine ⟨fun before => before.congr type payload, fun after => ?_⟩
      exact (later.scrubbed (after.congr changes.type.symm same.symm)).congr type payload
    · have payload : (loaded.flush clock assigned current).payload = assigned.payload :=
        written_of_ne same
      have after : Scrubbed key assigned := changes.payload.resolve_left same
      exact ⟨fun _ => after.congr typed payload, fun _ => after.congr typed payload⟩
  refine ⟨⟨type, both.1⟩, ⟨typed, both.2⟩, fun ended => ?_⟩
  by_cases same : assigned.status = loaded.status
  · have status : (loaded.flush clock assigned current).status = current.status := by
      simp [OutboxEvent.flush, same]
    exact both.1 (final (status ▸ ended))
  · have status : (loaded.flush clock assigned current).status = assigned.status :=
      written_of_ne same
    rcases changes.status.resolve_left same with open_ | after
    · rw [status, open_] at ended
      cases ended
    · exact both.2 after

/-! ## What the sessions hold -/

variable {τ : Type} [DecidableEq τ] {text : TextOps} {t u : τ} {k : Uuid} {db db' : Db τ}
  {T T' : Table Uuid τ OutboxEvent}

/-- Whoever saw a row still sees it, or a later version of it. -/
def Onward (key : String) (t : τ) (T T' : Table Uuid τ OutboxEvent) : Prop :=
  ∀ k r, T.view t k = some r → ∃ s, T'.view t k = some s ∧ Later key r s

/-- The same of the committed rows. -/
def CommittedOnward (key : String) (T T' : Table Uuid τ OutboxEvent) : Prop :=
  ∀ k r, T.committed k = some r → ∃ s, T'.committed k = some s ∧ Later key r s

theorem Onward.refl (key : String) (t : τ) (T : Table Uuid τ OutboxEvent) : Onward key t T T :=
  fun _ r seen => ⟨r, seen, .refl key r⟩

theorem CommittedOnward.refl (key : String) (T : Table Uuid τ OutboxEvent) :
    CommittedOnward key T T :=
  fun _ r here => ⟨r, here, .refl key r⟩

/-- An object is no newer than the row that its session sees, and was changed as above. -/
structure Grounded (key : String) (t : τ) (T : Table Uuid τ OutboxEvent) (k : Uuid)
    (o : SessionObject) : Prop where
  row : ∃ r, T.view t k = some r ∧ Later key o.loaded r
  changes : Changes key o.loaded o.assigned

theorem Grounded.onward {o : SessionObject} (h : Grounded key t T k o) (onward : Onward key t T T') :
    Grounded key t T' k o := by
  obtain ⟨r, seen, later⟩ := h.row
  obtain ⟨s, now, further⟩ := onward k r seen
  exact ⟨⟨s, now, later.trans further⟩, h.changes⟩

theorem grounded_fresh {r : OutboxEvent} (seen : T.view t k = some r) :
    Grounded key t T k ⟨r, r⟩ :=
  ⟨⟨r, seen, .refl key r⟩, .refl key r⟩

structure Sane (key : String) (db : Db τ) : Prop where
  final : db.events.Versions (FinalScrubbed key)
  prepared : db.events.Prepared fun _ => Later key
  objects : ∀ t k o, db.session t k = some o → Grounded key t db.events k o

/-! ### Rows -/

theorem onward_put {s : OutboxEvent} (free : T.free t k = true)
    (later : ∀ r, T.view t k = some r → Later key r s) (u : τ) :
    Onward key u T (T.put t k (some s)) := by
  intro j q before
  by_cases same : j = k
  · subst same
    by_cases mine : u = t
    · subst mine
      exact ⟨s, by simp, later q before⟩
    · have unheld : T.holder j ≠ some u := by
        intro held
        rcases Table.holder_of_free free with none | own
        · simp [none] at held
        · exact mine (Option.some.inj (held.symm.trans own))
      have after : (T.put t j (some s)).view u j = T.committed j := by
        rw [Table.view_of_not_held (by simpa using Ne.symm mine), Table.committed_put]
      rw [Table.view_of_not_held unheld] at before
      exact ⟨q, after.trans before, .refl key q⟩
  · exact ⟨q, by rwa [Table.view_put_other same], .refl key q⟩

theorem committedOnward_commit (prepared : T.Prepared fun _ => Later key) (t : τ) :
    CommittedOnward key T (T.commit t) := by
  intro j r here
  obtain ⟨s, seen, -⟩ := prepared.view here t
  exact ⟨s, by simpa using seen, prepared.rel_of_view (.refl key) here seen⟩

theorem onward_commit (prepared : T.Prepared fun _ => Later key) (u : τ) :
    Onward key u T (T.commit t) := by
  intro j r before
  by_cases held : (T.commit t).holder j = some u
  · have same := Table.cell_commit_other held
    exact ⟨r, by rwa [Table.view, same], .refl key r⟩
  · rw [Table.view_of_not_held held]
    by_cases mine : T.holder j = some u
    · -- what `u` has prepared is committed here, since `u` does not hold it any longer
      have own : u = t := by
        by_contra other
        rw [Table.holder_commit, if_neg] at held
        · exact held mine
        · rw [mine]
          exact fun is => other (Option.some.inj is)
      subst own
      exact ⟨r, by simpa using before, .refl key r⟩
    · rw [Table.view_of_not_held mine] at before
      exact committedOnward_commit prepared t j r before

theorem onward_rollback (other : u ≠ t) : Onward key u T (T.rollback t) := by
  intro j r before
  refine ⟨r, ?_, .refl key r⟩
  by_cases held : T.holder j = some t
  · have unheld : (T.rollback t).holder j ≠ some u := by
      rw [Table.holder_rollback, if_pos held]
      exact nofun
    have mine : T.holder j ≠ some u := by
      rw [held]
      exact fun is => other (Option.some.inj is).symm
    rw [Table.view_of_not_held unheld, Table.committed_rollback, ← Table.view_of_not_held mine]
    exact before
  · rwa [Table.view, Table.cell_rollback_of_not_held held]

/-! ### Statements -/

/-- The events move on, the sessions stay as they are. -/
theorem Sane.events (h : Sane key db) (final : T.Versions (FinalScrubbed key))
    (prepared : T.Prepared fun _ => Later key) (onward : ∀ u, Onward key u db.events T) :
    Sane key { db with events := T } :=
  ⟨final, prepared, fun u k o here => (h.objects u k o here).onward (onward u)⟩

theorem Sane.put (h : Sane key db) {s : OutboxEvent} (free : db.events.free t k = true)
    (later : ∀ r, db.events.view t k = some r → Later key r s) (final : FinalScrubbed key s) :
    Sane key { db with events := db.events.put t k (some s) } := by
  apply h.events (h.final.put final) _ (onward_put free later)
  apply h.prepared.put
  intro r here
  obtain ⟨q, seen, -⟩ := h.prepared.view here t
  exact (h.prepared.rel_of_view (.refl key) here seen).trans (later q seen)

theorem Sane.keep {o : SessionObject} (h : Sane key db) (grounded : Grounded key t db.events k o) :
    Sane key (db.keep t k (some o)) := by
  refine ⟨h.final, h.prepared, fun u j p here => ?_⟩
  by_cases mine : u = t
  · subst mine
    by_cases same : j = k
    · subst same
      simp only [Db.keep, Function.update_self, Option.some.injEq] at here
      exact here ▸ grounded
    · apply h.objects u j p
      simpa [Db.keep, Function.update_of_ne same] using here
  · apply h.objects u j p
    simpa [Db.keep, Function.update_of_ne mine] using here

theorem Sane.arrive {populateExisting : Bool} {row : OutboxEvent}
    {out : Except AppError (Option OutboxEvent)} (h : Sane key db)
    (seen : db.events.view t k = some row)
    (arrived : db.arrive t k populateExisting row = some (out, db')) :
    Sane key db' ∧ db'.events = db.events := by
  unfold Db.arrive at arrived
  split at arrived
  · split at arrived
    · cases arrived
      exact ⟨h.keep (grounded_fresh seen), rfl⟩
    · cases arrived
      exact ⟨h, rfl⟩
  · cases arrived
    exact ⟨h.keep (grounded_fresh seen), rfl⟩

theorem Sane.flush {out : Except AppError Unit} (h : Sane key db)
    (flushed : flushObject t k db = some (out, db')) :
    Sane key db' ∧ ∀ j, db'.events.committed j = db.events.committed j := by
  unfold flushObject at flushed
  split at flushed
  · cases flushed
    exact ⟨h, fun _ => rfl⟩
  · rename_i object here
    split at flushed
    · cases flushed
      exact ⟨h, fun _ => rfl⟩
    · obtain ⟨⟨result, T⟩, updated, is⟩ := Option.map_eq_some_iff.mp flushed
      rcases Table.update_cases updated with ⟨rfl, quiet⟩ | ⟨row, next, seen, written, ready, rfl, rfl⟩
      · rcases quiet with rfl | ⟨rfl, -⟩
        all_goals
          cases is
          exact ⟨h, fun _ => rfl⟩
      · cases is
        cases written
        obtain ⟨⟨loaded, found, later⟩, changes⟩ := h.objects t k object here
        cases seen.symm.trans found
        obtain ⟨onward, covered, final⟩ := changes.flush later (h.final.view seen) db.clock
        have put := h.put (t := t) (k := k) ready.free
          (fun r before => Option.some.inj (seen.symm.trans before) ▸ onward) final
        exact ⟨put.keep ⟨⟨_, by simp, covered⟩, .refl key _⟩, fun j => by simp [Db.keep]⟩

theorem Sane.commit (h : Sane key db) (t : τ) :
    Sane key { db with events := db.events.commit t, claims := db.claims.commit t } :=
  ⟨h.final.commit t, h.prepared.commit t, fun u k o here =>
    (h.objects u k o here).onward (onward_commit h.prepared u)⟩

theorem Sane.rollback (h : Sane key db) (t : τ) :
    Sane key { db with
      events := db.events.rollback t, claims := db.claims.rollback t
      session := Function.update db.session t fun _ => none } := by
  refine ⟨h.final.rollback t, h.prepared.rollback t, fun u k o here => ?_⟩
  by_cases mine : u = t
  · subst mine
    simp at here
  · have before : db.session u k = some o := by simpa [Function.update_of_ne mine] using here
    exact (h.objects u k o before).onward (onward_rollback mine)

theorem finalScrubbed_event (key : String) (request : PublishCall) (createdAt updatedAt : Time) :
    FinalScrubbed key (request.event createdAt updatedAt) := by
  intro ended
  cases ended

/-- What a statement does to the events that are committed. -/
theorem Sane.exec {s : Statement} {r : Except AppError (Answer s)}
    (sensitive : key ∈ sensitiveInvitePayloadKeys) (h : Sane key db)
    (executed : exec text t s db = some (r, db')) :
    Sane key db' ∧ CommittedOnward key db.events db'.events := by
  have same : ∀ {db' : Db τ}, (∀ j, db'.events.committed j = db.events.committed j) →
      CommittedOnward key db.events db'.events :=
    fun is j q here => ⟨q, (is j).trans here, .refl key q⟩
  cases s with
  | now | eventIds | deliveryClaim =>
      cases executed
      exact ⟨h, .refl key _⟩
  | loadEvent id populateExisting =>
      simp only [Scrubbers.exec] at executed
      split at executed
      · cases executed
        exact ⟨h, .refl key _⟩
      · rename_i row seen
        obtain ⟨sane, events⟩ := h.arrive seen executed
        exact ⟨sane, events ▸ .refl key _⟩
  | deliveryClaimedEvent id claimToken =>
      simp only [Scrubbers.exec] at executed
      split at executed
      · cases executed
        exact ⟨h, .refl key _⟩
      · rename_i row matched
        obtain ⟨sane, events⟩ := h.arrive (Option.filter_eq_some_iff.mp matched).1 executed
        exact ⟨sane, events ▸ .refl key _⟩
  | lockEvent query id skipLocked populateExisting =>
      simp only [Scrubbers.exec] at executed
      split at executed
      · cases executed
        exact ⟨h, .refl key _⟩
      · rename_i row matched
        have seen := (Option.filter_eq_some_iff.mp matched).1
        split at executed
        · rename_i free
          have locked := h.put (t := t) (k := id) free
            (fun r before => Option.some.inj (seen.symm.trans before) ▸ .refl key row)
            (h.final.view seen)
          obtain ⟨sane, events⟩ := locked.arrive (by simp) executed
          exact ⟨sane, same fun j => by simp [events]⟩
        · split at executed
          · cases executed
            exact ⟨h, .refl key _⟩
          · cases executed
  | change id change =>
      simp only [Scrubbers.exec] at executed
      split at executed
      · cases executed
        exact ⟨h, .refl key _⟩
      · rename_i object here
        cases executed
        obtain ⟨row, changes⟩ := h.objects t id object here
        exact ⟨h.keep ⟨row, changes.trans (change.changes sensitive _)⟩, .refl key _⟩
  | flush id =>
      obtain ⟨sane, committed⟩ := h.flush executed
      exact ⟨sane, same committed⟩
  | insertEvent request createdAt updatedAt =>
      obtain ⟨⟨result, T⟩, inserted, is⟩ := Option.map_eq_some_iff.mp executed
      cases is
      rcases Table.insert_cases inserted with ⟨rfl, -⟩ | ⟨unseen, ready, rfl, -⟩
      · exact ⟨h, .refl key _⟩
      · have final := finalScrubbed_event key request createdAt updatedAt
        refine ⟨h.put ready.free (fun r before => ?_) final, same fun j => by simp⟩
        cases unseen.symm.trans before
  | insertDeliveryClaim id claim =>
      simp only [Scrubbers.exec] at executed
      split at executed
      · obtain ⟨⟨result, T⟩, inserted, is⟩ := Option.map_eq_some_iff.mp executed
        cases is
        exact ⟨⟨h.final, h.prepared, h.objects⟩, .refl key _⟩
      · cases executed
        exact ⟨h, .refl key _⟩
  | clearDeliveryClaim id =>
      obtain ⟨⟨result, T⟩, deleted, is⟩ := Option.map_eq_some_iff.mp executed
      cases is
      exact ⟨⟨h.final, h.prepared, h.objects⟩, .refl key _⟩
  | commit =>
      cases executed
      exact ⟨h.commit t, committedOnward_commit h.prepared t⟩
  | rollback =>
      cases executed
      exact ⟨h.rollback t, same fun j => by simp⟩

/-! ## Runs -/

/-- Sessions about to begin on a database where nothing is locked. Final invite events have no
    secrets, as in an outbox without events and in whatever follows. -/
structure ScrubStart (ops : τ → List ScrubOp) (c : Config τ Statement Answer AppError (Db τ) Unit) :
    Prop where
  unlocked : ∀ k, c.db.events.holder k = none
  noObjects : ∀ t k, c.db.session t k = none
  ended : ∀ k e, c.db.events.committed k = some e →
    ∀ key ∈ sensitiveInvitePayloadKeys, FinalScrubbed key e
  programs : ∀ t, c.run t = some (sessionProgram (ops t))

section Runs

variable {ops : τ → List ScrubOp} {start c d : Config τ Statement Answer AppError (Db τ) Unit}

theorem ScrubStart.sane (h : ScrubStart ops start) (sensitive : key ∈ sensitiveInvitePayloadKeys) :
    Sane key start.db where
  final := by
    refine ⟨fun k e here => h.ended k e here key sensitive, fun k e here => ?_⟩
    obtain ⟨t, held⟩ := Table.held_of_pending here
    simp [h.unlocked k] at held
  prepared k t r held := by simp [h.unlocked k] at held
  objects t k o here := by simp [h.noObjects t k] at here

/-- One step keeps the invariant, and what it commits is later than what was. -/
theorem Sane.step (sensitive : key ∈ sensitiveInvitePayloadKeys) (h : Sane key c.db)
    (step : (machine τ text).Step (fun _ _ _ => True) c d) :
    Sane key d.db ∧ CommittedOnward key c.db.events d.db.events := by
  cases step with
  | exec running _ executed => exact h.exec sensitive executed
  | fault => exact ⟨h, .refl key _⟩
  | @crash t =>
      refine ⟨h.rollback t, fun j r here => ⟨r, ?_, .refl key r⟩⟩
      simpa [machine] using here
  | env moved =>
      obtain ⟨clock, is⟩ := moved
      subst is
      exact ⟨⟨h.final, h.prepared, h.objects⟩, .refl key _⟩

theorem Sane.reaches (sensitive : key ∈ sensitiveInvitePayloadKeys) (h : Sane key c.db)
    (run : (machine τ text).Reaches (fun _ _ _ => True) c d) :
    Sane key d.db ∧ CommittedOnward key c.db.events d.db.events := by
  induction run with
  | refl => exact ⟨h, .refl key _⟩
  | tail _ step ih =>
      obtain ⟨sane, onward⟩ := ih
      obtain ⟨after, further⟩ := sane.step sensitive step
      refine ⟨after, fun k r here => ?_⟩
      obtain ⟨s, between, later⟩ := onward k r here
      obtain ⟨q, now, again⟩ := further k s between
      exact ⟨q, now, later.trans again⟩

/-- A committed invite event with a final status has neither secret, and a secret that a
    committed version lacks is in no later one. -/
theorem invite_secrets_leave_for_good (h : ScrubStart ops start)
    (run : (machine τ text).Reaches (fun _ _ _ => True) start c)
    (more : (machine τ text).Reaches (fun _ _ _ => True) c d) {e : OutboxEvent}
    (here : c.db.events.committed k = some e)
    (invite : inviteOutboxEventTypes.contains e.eventType = true)
    (sensitive : key ∈ sensitiveInvitePayloadKeys) :
    (e.status.isFinal = true → e.payload.has key = false) ∧
      ∃ e', d.db.events.committed k = some e' ∧
        (e.payload.has key = false → e'.payload.has key = false) := by
  obtain ⟨sane, -⟩ := (h.sane sensitive).reaches sensitive run
  obtain ⟨-, onward⟩ := sane.reaches sensitive more
  obtain ⟨e', now, later⟩ := onward k e here
  refine ⟨fun ended => sane.final.committed k e here ended invite, e', now, fun gone => ?_⟩
  exact later.scrubbed (fun _ => gone) (later.type ▸ invite)

end Runs

/-! ## A release from an object that has become stale -/

/-- An invite event in processing. -/
def inviteEvent : OutboxEvent where
  eventType := "invite.created"
  status := .processing
  payload := .dict [("email", .text "a@example.org"), ("role", .text "member")]
  attempts := 0
  maxAttempts := 3
  aggregateType := "invite"
  aggregateId := some 4
  lockedAt := some 0
  nextAttemptAt := none
  lastError := none
  processedAt := none
  createdAt := 0
  updatedAt := 0

/-- `true` records a delivery, `false` releases the event for a retry. -/
def exampleOps : Bool → List ScrubOp
  | true => [.applyResult 1 "token" true none]
  | false => [.releaseForRetry 1 "broker"]

def exampleStart : Config Bool Statement Answer AppError (Db Bool) Unit :=
  ⟨⟨.ofRows [(1, inviteEvent)], .ofRows [(1, ⟨"token", 0⟩)], fun _ _ => none, 60⟩,
    fun t => some (sessionProgram (exampleOps t))⟩

theorem exampleStart_start : ScrubStart exampleOps exampleStart where
  unlocked := Table.holder_ofRows _
  noObjects _ _ := rfl
  ended k e here := by
    rw [show exampleStart.db.events = .ofRows [(1, inviteEvent)] from rfl,
      Table.committed_ofRows] at here
    cases List.mem_singleton.mp (Table.lookup_mem here)
    intro key _ ended
    cases ended
  programs _ := rfl

/-- What is committed of the event: its type, its status, and whether it has an e-mail. -/
def shown (c : Config Bool Statement Answer AppError (Db Bool) Unit) :
    Option (String × OutboxStatus × Bool) :=
  (c.db.events.committed 1).map fun e => (e.eventType, e.status, e.payload.has "email")

/-- The release read the event before the delivery was recorded. It brings the event back to
    `pending`, but not the e-mail. -/
theorem invite_secrets_leave_for_good_example :
    ∃ c d, (machine Bool plainText).Reaches (fun _ _ _ => True) exampleStart c ∧
      (machine Bool plainText).Reaches (fun _ _ _ => True) c d ∧
      shown exampleStart = some ("invite.created", .processing, true) ∧
      shown c = some ("invite.created", .processed, false) ∧
      shown d = some ("invite.created", .pending, false) := by
  have played : ((machine Bool plainText).play (fun _ _ _ => true)
      [false, true, true, true, true, true, true] exampleStart).map (fun c =>
        (shown c, ((machine Bool plainText).play (fun _ _ _ => true)
          [false, false, false, false, false] c).map fun d => (shown d).map fun s => (s.1, s.2.1))) =
        some (some ("invite.created", .processed, false),
          some (some ("invite.created", .pending))) := by rfl
  have checked : ∀ (t : Bool) (s : Statement) (db : Db Bool), true = true → True :=
    fun _ _ _ _ => trivial
  obtain ⟨c, run, seen⟩ := Machine.run_of_play checked played
  obtain ⟨before, after⟩ := Prod.mk.inj seen
  obtain ⟨d, more, released⟩ := Machine.run_of_play checked after
  refine ⟨c, d, run, more, rfl, before, ?_⟩
  obtain ⟨e, here, is⟩ := Option.map_eq_some_iff.mp before
  obtain ⟨type, is⟩ := Prod.mk.inj is
  obtain ⟨-, gone⟩ := Prod.mk.inj is
  have invite : inviteOutboxEventTypes.contains e.eventType = true := by
    rw [type]
    decide
  obtain ⟨-, e', now, later⟩ := invite_secrets_leave_for_good exampleStart_start run more here invite
    (show "email" ∈ sensitiveInvitePayloadKeys by decide)
  simp only [shown, now, Option.map_some, Option.some.injEq, Prod.mk.injEq] at released ⊢
  exact ⟨released.1, released.2, later gone⟩

end Scrubbers

end SaasTemplate.Outbox
