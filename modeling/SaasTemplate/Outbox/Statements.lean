import Mathlib.Data.List.Sort
import SaasTemplate.Outbox.Model
import SaasTemplate.Tenancy.Statements

/-! # The outbox: the statements

The statements of the repository functions and of the worker. A `SELECT ... FOR UPDATE`
over several rows is the list of ids it finds followed by one locking statement for each.
Invites belong to other services, which may change them at any time.
-/

set_option linter.unusedSectionVars false

namespace SaasTemplate.Outbox

open SaasTemplate.Isolation

open SaasTemplate.Tenancy (Invite updateIf)

/-- The outbox tables, the invites, and the wall clock. -/
structure Db (τ : Type) where
  events : Table Uuid τ OutboxEvent
  claims : Table Uuid τ OutboxDeliveryClaim
  invites : Table Uuid τ Invite
  clock : Time

/-- The repository function that flushes a changed event, with the claim token of the
    worker that reports an outcome. -/
inductive Writer where
  | claimDueEvents
  | claimForDelivery
  | applyResult (claimToken : String)
  | releaseForRetry
  | recoverStale
  deriving DecidableEq, Repr

inductive Statement where
  | now
  | insertEvent (id : Uuid) (event : OutboxEvent)
  | eventById (id : Uuid)
  | dueEventIds (now : Time)
  | lockDueEvent (id : Uuid) (now : Time)
  | staleEventIds (staleBefore : Time)
  | lockStaleEvent (id : Uuid) (staleBefore : Time)
  | lockEvent (id : Uuid)
  | deliveryClaim (id : Uuid)
  | insertDeliveryClaim (id : Uuid) (claim : OutboxDeliveryClaim)
  | clearDeliveryClaim (id : Uuid)
  | deliveryClaimedEvent (id : Uuid) (claimToken : String)
  | flushEvent (writer : Writer) (id : Uuid) (loaded assigned : OutboxEvent)
  | inviteById (id : Uuid)
  | expirePendingInvite (id organisation : Uuid) (now : Time)
  | deliver (id : Uuid) (invite : Invite) (rawToken : String)
  | commit
  | rollback
  deriving DecidableEq

/-- What a statement returns when it succeeds. -/
abbrev Answer : Statement → Type
  | .now => Time
  | .eventById _ | .lockDueEvent _ _ | .lockStaleEvent _ _ | .lockEvent _
  | .deliveryClaimedEvent _ _ => Option OutboxEvent
  | .dueEventIds _ | .staleEventIds _ => List Uuid
  | .deliveryClaim _ => Option OutboxDeliveryClaim
  | .inviteById _ | .expirePendingInvite _ _ _ => Option Invite
  | _ => Unit

section Exec

variable {τ α : Type} [DecidableEq τ] (text : TextOps) (t : τ)

/-- The effect of a statement: it waits, or it answers and leaves a database. -/
abbrev Effect (τ α : Type) : Type := Option (Except AppError α × Db τ)

def read (a : α) (db : Db τ) : Effect τ α := some (.ok a, db)

/-- The ids of the events that meet `p`, the smallest `key` first. -/
def eventIds (p : OutboxEvent → Bool) (key : OutboxEvent → Option Time) (db : Db τ) : List Uuid :=
  let before (a b : Uuid × OutboxEvent) : Prop := ∀ x ∈ key a.2, ∀ y ∈ key b.2, x ≤ y
  ((db.events.select t fun _ e => p e).insertionSort before).map (·.1)

/-- `FOR UPDATE SKIP LOCKED` on one of the rows found. -/
def lockOrSkip (id : Uuid) (p : OutboxEvent → Bool) (db : Db τ) : Effect τ (Option OutboxEvent) :=
  let out := db.events.lockRowOrSkip t id p
  some (.ok out.1, { db with events := out.2 })

/-- The ORM `UPDATE` of one event by primary key, if the object was changed at all. -/
def flushEvent (id : Uuid) (loaded assigned : OutboxEvent) (db : Db τ) : Effect τ Unit :=
  if assigned = loaded then read () db
  else
    (db.events.update Table.unindexed .integrityError t id fun current =>
      some (loaded.flush db.clock assigned current)).map fun out => (match out.1 with
        | .ok (some _) => .ok ()
        | .ok none => .error .staleDataError
        | .error e => .error e, { db with events := out.2 })

/-- The end of transaction `t` with all its writes. -/
def Db.commit (db : Db τ) : Db τ :=
  { db with
    events := db.events.commit t, claims := db.claims.commit t, invites := db.invites.commit t }

/-- The end of transaction `t` without a trace. -/
def Db.rollback (db : Db τ) : Db τ :=
  { db with
    events := db.events.rollback t, claims := db.claims.rollback t
    invites := db.invites.rollback t }

/-- What each statement does. -/
def exec (s : Statement) (db : Db τ) : Effect τ (Answer s) :=
  match s with
  | .now => read db.clock db
  | .insertEvent id event =>
      (db.events.insert Table.unindexed .integrityError t id event).map fun out =>
        (out.1, { db with events := out.2 })
  | .eventById id => read (db.events.view t id) db
  | .dueEventIds now => read (eventIds t (·.isDue now) (some ·.createdAt) db) db
  | .lockDueEvent id now => lockOrSkip t id (·.isDue now) db
  | .staleEventIds staleBefore => read (eventIds t (·.isStale staleBefore) (·.lockedAt) db) db
  | .lockStaleEvent id staleBefore => lockOrSkip t id (·.isStale staleBefore) db
  | .lockEvent id =>
      (db.events.lockRow t id fun _ => true).map fun out => (.ok out.1, { db with events := out.2 })
  | .deliveryClaim id => read (db.claims.view t id) db
  | .insertDeliveryClaim id claim =>
      -- the foreign key to the event, checked with the row
      if (db.events.view t id).isSome then
        (db.claims.insert Table.unindexed .integrityError t id claim).map fun out =>
          (out.1, { db with claims := out.2 })
      else some (.error .integrityError, db)
  | .clearDeliveryClaim id =>
      (db.claims.delete t id fun _ => true).map fun out => (.ok (), { db with claims := out.2 })
  | .deliveryClaimedEvent id claimToken =>
      read ((db.events.view t id).filter fun e => e.status == .processing &&
        (db.claims.view t id).any (·.claimToken == claimToken)) db
  | .flushEvent _ id loaded assigned => flushEvent t id loaded assigned db
  | .inviteById id => read (db.invites.view t id) db
  | .expirePendingInvite id organisation now =>
      (db.invites.update (Invite.entries text) .integrityError t id
        (updateIf (fun i => i.organisationId == organisation && i.isPending && i.isExpiredAt now)
          fun i => { i with status := .expired, updatedAt := db.clock })).map fun out =>
        (out.1, { db with invites := out.2 })
  -- the sink is outside the database
  | .deliver _ _ _ => read () db
  | .commit => read () (db.commit t)
  | .rollback => read () (db.rollback t)

end Exec

/-- The outbox database. Any statement but a rollback may fail; a client that is lost is
    rolled back by the server; the clock and the invites may be anything at any time. -/
def machine (τ : Type) [DecidableEq τ] (text : TextOps) :
    Machine τ Statement Answer AppError (Db τ) where
  exec := exec text
  fallible s := s ≠ .rollback
  crash t db := db.rollback t
  env db db' := ∃ clock invites, db' = { db with clock, invites }

/-! ## What a step does to the outbox -/

/-- The effect of statement `s` of `t` on events and claims, and when it has it. -/
inductive Case {τ : Type} [DecidableEq τ] (t : τ) (s : Statement) (db : Db τ) : Db τ → Prop where
  | quiet (invites : Table Uuid τ Invite) : s ≠ .commit → Case t s db { db with invites }
  | insertEvent (id : Uuid) (event : OutboxEvent) : s = .insertEvent id event →
      db.events.view t id = none → db.events.free t id = true →
      Case t s db { db with events := db.events.put t id (some event) }
  | lockEvent (id : Uuid) (event : OutboxEvent) : s ≠ .commit → db.events.view t id = some event →
      db.events.free t id = true →
      Case t s db { db with events := db.events.put t id (some event) }
  | flushEvent (writer : Writer) (id : Uuid) (loaded assigned current : OutboxEvent) :
      s = .flushEvent writer id loaded assigned → assigned ≠ loaded →
      db.events.view t id = some current → db.events.free t id = true →
      Case t s db { db with
        events := db.events.put t id (some (loaded.flush db.clock assigned current)) }
  | insertDeliveryClaim (id : Uuid) (claim : OutboxDeliveryClaim) :
      s = .insertDeliveryClaim id claim → db.claims.view t id = none →
      db.claims.free t id = true →
      Case t s db { db with claims := db.claims.put t id (some claim) }
  | clearDeliveryClaim (id : Uuid) (claim : OutboxDeliveryClaim) : s = .clearDeliveryClaim id →
      db.claims.view t id = some claim → db.claims.free t id = true →
      Case t s db { db with claims := db.claims.put t id none }
  | commit : s = .commit → Case t s db (db.commit t)
  | rollback : s = .rollback → Case t s db (db.rollback t)

section Inversion

variable {τ : Type} [DecidableEq τ] {text : TextOps} {t : τ} {s : Statement} {db db' : Db τ}

theorem Case.same (open_ : s ≠ .commit) : Case t s db db := .quiet db.invites open_

theorem Case.of_lockOrSkip {id : Uuid} {p : OutboxEvent → Bool}
    {r : Except AppError (Option OutboxEvent)} (open_ : s ≠ .commit)
    (h : lockOrSkip t id p db = some (r, db')) : Case t s db db' := by
  simp only [lockOrSkip, Option.some.injEq, Prod.mk.injEq] at h
  obtain ⟨-, rfl⟩ := h
  generalize locked : db.events.lockRowOrSkip t id p = out
  obtain ⟨found, T⟩ := out
  rcases Table.lockRowOrSkip_cases locked with ⟨rfl, -⟩ | ⟨row, seen, -, free, rfl, -⟩
  · exact .same open_
  · exact .lockEvent id row open_ seen free

/-- Every statement has one of these effects. -/
theorem exec_case {r : Except AppError (Answer s)} (h : exec text t s db = some (r, db')) :
    Case t s db db' := by
  cases s with
  | now | eventById | dueEventIds | staleEventIds | deliveryClaim | deliveryClaimedEvent
  | inviteById | deliver =>
      cases h
      exact .same (by simp)
  | insertEvent id event =>
      obtain ⟨⟨out, T⟩, inserted, is⟩ := Option.map_eq_some_iff.mp h
      cases is
      rcases Table.insert_cases inserted with ⟨rfl, -⟩ | ⟨fresh, ok, rfl, -⟩
      · exact .same (by simp)
      · exact .insertEvent id event rfl fresh ok.free
  | lockDueEvent id now => exact .of_lockOrSkip (by simp) h
  | lockStaleEvent id staleBefore => exact .of_lockOrSkip (by simp) h
  | lockEvent id =>
      obtain ⟨⟨out, T⟩, locked, is⟩ := Option.map_eq_some_iff.mp h
      cases is
      rcases Table.lockRow_cases locked with ⟨rfl, -⟩ | ⟨row, seen, -, free, rfl, -⟩
      · exact .same (by simp)
      · exact .lockEvent id row (by simp) seen free
  | insertDeliveryClaim id claim =>
      simp only [exec] at h
      split at h
      · obtain ⟨⟨out, T⟩, inserted, is⟩ := Option.map_eq_some_iff.mp h
        cases is
        rcases Table.insert_cases inserted with ⟨rfl, -⟩ | ⟨fresh, ok, rfl, -⟩
        · exact .same (by simp)
        · exact .insertDeliveryClaim id claim rfl fresh ok.free
      · cases h
        exact .same (by simp)
  | clearDeliveryClaim id =>
      obtain ⟨⟨out, T⟩, deleted, is⟩ := Option.map_eq_some_iff.mp h
      cases is
      rcases Table.delete_cases deleted with ⟨rfl, -⟩ | ⟨row, seen, -, free, rfl, -⟩
      · exact .same (by simp)
      · exact .clearDeliveryClaim id row rfl seen free
  | flushEvent writer id loaded assigned =>
      simp only [exec, flushEvent] at h
      split at h
      · cases h
        exact .same (by simp)
      · rename_i changed
        obtain ⟨⟨out, T⟩, updated, is⟩ := Option.map_eq_some_iff.mp h
        cases is
        rcases Table.update_cases updated with ⟨rfl, -⟩ | ⟨row, r, seen, is, ok, rfl, -⟩
        · exact .same (by simp)
        · cases is
          exact .flushEvent writer id loaded assigned row rfl changed seen ok.free
  | expirePendingInvite id organisation now =>
      obtain ⟨⟨out, T⟩, updated, is⟩ := Option.map_eq_some_iff.mp h
      cases is
      exact .quiet T (by simp)
  | commit =>
      cases h
      exact .commit rfl
  | rollback =>
      cases h
      exact .rollback rfl

end Inversion

end SaasTemplate.Outbox
