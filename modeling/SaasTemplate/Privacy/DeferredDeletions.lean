import SaasTemplate.Privacy.Lifecycle

/-! # Deferred deletion of export objects

The erasure of a subject notes the stored archives on the session, and handlers of the
session's events delete or forget them. A ledger beside the session says what should be
deleted: what was registered in transactions that committed, with all their savepoints.
-/

namespace SaasTemplate.Privacy

structure DeferredExportObjectDeletion where
  storageBackend : StorageBackend
  storageKey : String
  deriving DecidableEq, Repr

/-- `_subject_owned_export_object_deletions`. -/
def subjectOwnedExportObjectDeletions (subject : Uuid) (rows : List ExportArtifact) :
    List DeferredExportObjectDeletion :=
  rows.filterMap fun row =>
    if row.isOwnedBy subject then row.storageKey.map (⟨row.storageBackend, ·⟩) else none

/-- What the provider for export artifacts registers: nothing if it refuses the rows. -/
def registeredDeletions (subject : Uuid) (rows : List ExportArtifact) :
    List DeferredExportObjectDeletion :=
  if rows.any (·.status == .processing) then []
  else subjectOwnedExportObjectDeletions subject rows

/-! ## The session -/

/-- A session: the savepoints of its transaction, if it is in one; what its `info` holds; and
    the deletions that storage has been asked for. -/
structure SyncSession where
  savepoints : Option Nat
  pendingDeletions : Option (List DeferredExportObjectDeletion)
  hooksRegistered : Bool
  deleted : List DeferredExportObjectDeletion

inductive SessionEvent where
  | afterTransactionEnd (hasParent : Bool)
  | afterRollback
  | afterSoftRollback

/-- What the client of a session does. A `flush` runs in a transaction of its own inside. -/
inductive SessionAction where
  | begin
  | beginNested
  | flush
  | minimiseExportArtifacts (subject : Uuid) (rows : List ExportArtifact)
  | release
  | rollbackNested
  | commit
  | rollback
  | close

namespace SyncSession

/-- `_register_deferred_export_object_deletions`, which is not called without deletions. -/
def register (deletions : List DeferredExportObjectDeletion) (s : SyncSession) : SyncSession :=
  if deletions.isEmpty then s
  else { s with
    pendingDeletions := some (s.pendingDeletions.getD [] ++ deletions), hooksRegistered := true }

/-- `_delete_deferred_export_artifact_objects_after_root_end`. -/
def deleteAfterRootEnd (hasParent : Bool) (s : SyncSession) : SyncSession :=
  if hasParent then s
  else { s with
    pendingDeletions := none, deleted := s.deleted ++ s.pendingDeletions.getD [] }

/-- `_discard_deferred_export_artifact_objects`. -/
def discard (s : SyncSession) : SyncSession := { s with pendingDeletions := none }

/-- An event reaches the handlers once they are registered. -/
def emit (s : SyncSession) (event : SessionEvent) : SyncSession :=
  if s.hooksRegistered then match event with
    | .afterTransactionEnd hasParent => s.deleteAfterRootEnd hasParent
    | .afterRollback | .afterSoftRollback => s.discard
  else s

end SyncSession

/-- The events of a transaction that is rolled back. -/
def SessionEvent.rolledBack (hasParent : Bool) : List SessionEvent :=
  [.afterRollback, .afterTransactionEnd hasParent, .afterSoftRollback]

/-- The events of an action, in a transaction with `n` savepoints. The end of a transaction is
    also the end of its savepoints; a close ends them as a commit does. -/
def SessionAction.events (n : Nat) : SessionAction → List SessionEvent
  | .begin | .beginNested | .minimiseExportArtifacts _ _ => []
  | .flush | .release => [.afterTransactionEnd true]
  | .rollbackNested => SessionEvent.rolledBack true
  | .commit | .close =>
      List.replicate n (.afterTransactionEnd true) ++ [.afterTransactionEnd false]
  | .rollback =>
      (List.replicate n (SessionEvent.rolledBack true)).flatten ++ SessionEvent.rolledBack false

/-- The effect of an action; `none` if it is not possible. -/
def SyncSession.step (action : SessionAction) (s : SyncSession) : Option SyncSession :=
  match s.savepoints with
  | none => match action with
      | .begin => some { s with savepoints := some 0 }
      | _ => none
  | some n =>
      let after := (action.events n).foldl emit s
      match action, n with
      | .begin, _ => none
      | .beginNested, n => some { s with savepoints := some (n + 1) }
      | .flush, _ => some after
      | .minimiseExportArtifacts subject rows, _ =>
          some (s.register (registeredDeletions subject rows))
      | .release, n + 1 | .rollbackNested, n + 1 => some { after with savepoints := some n }
      | .release, 0 | .rollbackNested, 0 => none
      | .commit, _ | .rollback, _ | .close, _ => some { after with savepoints := none }

/-! ## The ledger -/

/-- The registrations of the open transactions, the innermost first, and those of the
    transactions that have committed. -/
structure Ledger where
  transactions : List (List DeferredExportObjectDeletion)
  due : List DeferredExportObjectDeletion

/-- A savepoint hands its registrations on when it is released; a root transaction makes
    them due when it commits. All others are dropped. -/
def Ledger.step (action : SessionAction) (l : Ledger) : Option Ledger :=
  match action, l.transactions with
  | .begin, [] => some { l with transactions := [[]] }
  | .beginNested, t :: outer => some { l with transactions := [] :: t :: outer }
  | .flush, _ :: _ => some l
  | .minimiseExportArtifacts subject rows, t :: outer =>
      some { l with transactions := (t ++ registeredDeletions subject rows) :: outer }
  | .release, t :: parent :: outer => some { l with transactions := (parent ++ t) :: outer }
  | .rollbackNested, _ :: parent :: outer => some { l with transactions := parent :: outer }
  | .commit, t :: outer => some ⟨[], l.due ++ (t :: outer).reverse.flatten⟩
  | .rollback, _ :: _ | .close, _ :: _ => some ⟨[], l.due⟩
  | _, _ => none

structure LedgeredSession where
  session : SyncSession
  ledger : Ledger

namespace LedgeredSession

def fresh : LedgeredSession := ⟨⟨none, none, false, []⟩, ⟨[], []⟩⟩

def step (action : SessionAction) (p : LedgeredSession) : Option LedgeredSession := do
  let session ← p.session.step action
  let ledger ← p.ledger.step action
  pure ⟨session, ledger⟩

/-- A run of a session in which every action meets `allowed`. -/
abbrev Reaches (allowed : SessionAction → Ledger → Prop) :
    LedgeredSession → LedgeredSession → Prop :=
  Relation.ReflTransGen fun p q => ∃ action, allowed action p.ledger ∧ p.step action = some q

end LedgeredSession

/-- Storage is asked for exactly the deletions that are due, each of them once. -/
def DeletesWhatIsDue (allowed : SessionAction → Ledger → Prop) : Prop :=
  ∀ p, LedgeredSession.Reaches allowed .fresh p → p.session.deleted = p.ledger.due

/-- No registration is left when a session is closed, or outside of a savepoint that is
    rolled back. -/
def sparesRegistrations : SessionAction → Ledger → Bool
  | .close, l => l.transactions.flatten.isEmpty
  | .rollbackNested, l => l.transactions.tail.flatten.isEmpty
  | _, _ => true

/-! ## What the events do -/

namespace SyncSession

/-- Deletions are noted only with the handlers in place. -/
def Hooked (s : SyncSession) : Prop := s.pendingDeletions.isSome = true → s.hooksRegistered = true

variable {s : SyncSession} {hasParent : Bool}

@[simp] theorem emit_inner_end : s.emit (.afterTransactionEnd true) = s := by
  simp [emit, deleteAfterRootEnd]

theorem Hooked.pending (h : s.Hooked) (unhooked : s.hooksRegistered = false) :
    s.pendingDeletions = none := by
  cases pending : s.pendingDeletions with
  | none => rfl
  | some deletions => simp [Hooked, pending, unhooked] at h

theorem Hooked.emit_root_end (h : s.Hooked) : s.emit (.afterTransactionEnd false) =
    { s with pendingDeletions := none, deleted := s.deleted ++ s.pendingDeletions.getD [] } := by
  cases hooked : s.hooksRegistered with
  | true => simp [emit, hooked, deleteAfterRootEnd]
  | false =>
      have nothing := h.pending hooked
      cases s
      simp_all [emit]

theorem Hooked.emit_rollback (h : s.Hooked) : s.emit .afterRollback = s.discard := by
  cases hooked : s.hooksRegistered with
  | true => simp [emit, hooked]
  | false =>
      have nothing := h.pending hooked
      cases s
      simp_all [emit, discard]

/-- With nothing noted no event does anything. -/
theorem emit_discard (event : SessionEvent) : s.discard.emit event = s.discard := by
  unfold emit
  split
  · cases event with
    | afterTransactionEnd hasParent => cases hasParent <;> simp [deleteAfterRootEnd, discard]
    | afterRollback | afterSoftRollback => rfl
  · rfl

theorem foldl_discard (events : List SessionEvent) : events.foldl emit s.discard = s.discard := by
  induction events with
  | nil => rfl
  | cons event rest ih => rw [List.foldl_cons, emit_discard, ih]

theorem Hooked.rolledBack (h : s.Hooked) (rest : List SessionEvent) :
    (SessionEvent.rolledBack hasParent ++ rest).foldl emit s = s.discard := by
  rw [SessionEvent.rolledBack, List.cons_append, List.foldl_cons, h.emit_rollback, foldl_discard]

theorem inner_ends (n : Nat) :
    (List.replicate n (SessionEvent.afterTransactionEnd true)).foldl emit s = s := by
  induction n with
  | zero => rfl
  | succ n ih => simp [List.replicate_succ, ih]

/-- A commit and a close of the session delete what is noted. -/
theorem Hooked.rootEnd (h : s.Hooked) (n : Nat) :
    (SessionAction.commit.events n).foldl emit s =
      { s with pendingDeletions := none, deleted := s.deleted ++ s.pendingDeletions.getD [] } := by
  rw [SessionAction.events, List.foldl_append, inner_ends]
  exact h.emit_root_end

theorem Hooked.rollback (h : s.Hooked) (n : Nat) :
    (SessionAction.rollback.events n).foldl emit s = s.discard := by
  cases n with
  | zero => exact h.rolledBack []
  | succ n =>
      rw [SessionAction.events, List.replicate_succ, List.flatten_cons, List.append_assoc]
      exact h.rolledBack _

theorem Hooked.step_rollbackNested {n : Nat} (h : s.Hooked) (level : s.savepoints = some (n + 1)) :
    s.step .rollbackNested = some { s.discard with savepoints := some n } := by
  have forgets : (SessionEvent.rolledBack true ++ []).foldl emit s = s.discard := h.rolledBack []
  rw [List.append_nil] at forgets
  simp only [SyncSession.step, level, SessionAction.events, forgets]

theorem Hooked.step_commit {n : Nat} (h : s.Hooked) (level : s.savepoints = some n) :
    s.step .commit = some { s with
      savepoints := none, pendingDeletions := none
      deleted := s.deleted ++ s.pendingDeletions.getD [] } := by
  simp only [SyncSession.step, level, h.rootEnd]

theorem register_pending (deletions : List DeferredExportObjectDeletion) :
    (s.register deletions).pendingDeletions.getD [] = s.pendingDeletions.getD [] ++ deletions := by
  unfold register
  split
  · rename_i empty
    simp [List.isEmpty_iff.mp empty]
  · rfl

@[simp] theorem register_savepoints (deletions : List DeferredExportObjectDeletion) :
    (s.register deletions).savepoints = s.savepoints := by
  unfold register
  split <;> rfl

@[simp] theorem register_deleted (deletions : List DeferredExportObjectDeletion) :
    (s.register deletions).deleted = s.deleted := by
  unfold register
  split <;> rfl

theorem Hooked.register (h : s.Hooked) (deletions : List DeferredExportObjectDeletion) :
    (s.register deletions).Hooked := by
  unfold SyncSession.register
  split
  · exact h
  · exact fun _ => rfl

end SyncSession

/-! ## The session and its ledger -/

/-- The session has noted what is registered in its open transactions, and has deleted what
    was due. -/
structure Agrees (p : LedgeredSession) : Prop where
  hooked : p.session.Hooked
  savepoints : p.session.savepoints = p.ledger.transactions.tail?.map (·.length)
  pending : p.session.pendingDeletions.getD [] = p.ledger.transactions.reverse.flatten
  deleted : p.session.deleted = p.ledger.due

variable {p q : LedgeredSession} {action : SessionAction}

theorem LedgeredSession.step_eq (h : p.step action = some q) :
    p.session.step action = some q.session ∧ p.ledger.step action = some q.ledger := by
  obtain ⟨session, moved, h⟩ := Option.bind_eq_some_iff.mp h
  obtain ⟨ledger, entered, is⟩ := Option.bind_eq_some_iff.mp h
  cases is
  exact ⟨moved, entered⟩

theorem flatten_reverse_of_flatten {α : Type} {lists : List (List α)} (h : lists.flatten = []) :
    lists.reverse.flatten = [] := by
  simpa [List.flatten_eq_nil_iff] using h

/-- Outside of a transaction the session only begins one. -/
theorem Agrees.step_outside (h : Agrees p) (outside : p.ledger.transactions = [])
    (moves : p.step action = some q) : Agrees q := by
  obtain ⟨session, ledger⟩ := q
  obtain ⟨moved, entered⟩ := LedgeredSession.step_eq moves
  have none_open : p.session.savepoints = none := by simp [h.savepoints, outside]
  cases action <;> simp only [Ledger.step, outside, reduceCtorEq] at entered
  simp only [SyncSession.step, none_open] at moved
  obtain rfl := Option.some.inj moved
  obtain rfl := Option.some.inj entered
  exact ⟨h.hooked, rfl, by simpa [outside] using h.pending, h.deleted⟩

/-- In a transaction, an action that spares what is registered outside of the part it ends. -/
theorem Agrees.step_inside (h : Agrees p) {t : List DeferredExportObjectDeletion}
    {outer : List (List DeferredExportObjectDeletion)}
    (inside : p.ledger.transactions = t :: outer)
    (spares : sparesRegistrations action p.ledger = true) (moves : p.step action = some q) :
    Agrees q := by
  obtain ⟨session, ledger⟩ := q
  obtain ⟨moved, entered⟩ := LedgeredSession.step_eq moves
  have some_open : p.session.savepoints = some outer.length := by simp [h.savepoints, inside]
  have noted : p.session.pendingDeletions.getD [] = outer.reverse.flatten ++ t := by
    simpa [inside] using h.pending
  simp only [SyncSession.step, some_open] at moved
  simp only [Ledger.step, inside] at entered
  cases action with
  | begin => cases moved
  | beginNested =>
      obtain rfl := Option.some.inj moved
      obtain rfl := Option.some.inj entered
      exact ⟨h.hooked, by simp, by simpa using noted, h.deleted⟩
  | flush =>
      obtain rfl := Option.some.inj moved
      obtain rfl := Option.some.inj entered
      simp only [SessionAction.events, List.foldl_cons, List.foldl_nil, SyncSession.emit_inner_end]
      exact h
  | minimiseExportArtifacts subject rows =>
      obtain rfl := Option.some.inj moved
      obtain rfl := Option.some.inj entered
      exact ⟨h.hooked.register _, by simp [some_open],
        by simp [SyncSession.register_pending, noted], by simpa using h.deleted⟩
  | release =>
      cases outer with
      | nil => cases moved
      | cons parent outer =>
          obtain rfl := Option.some.inj moved
          obtain rfl := Option.some.inj entered
          simp only [SessionAction.events, List.foldl_cons, List.foldl_nil,
            SyncSession.emit_inner_end]
          exact ⟨h.hooked, by simp, by simpa using noted, h.deleted⟩
  | rollbackNested =>
      cases outer with
      | nil => cases moved
      | cons parent outer =>
          -- everything noted is forgotten, and nothing was registered outside
          have spared : parent = [] ∧ outer.flatten = [] := by
            simpa [sparesRegistrations, inside] using spares
          obtain rfl := Option.some.inj ((h.hooked.step_rollbackNested some_open).symm.trans
            (LedgeredSession.step_eq moves).1)
          obtain rfl := Option.some.inj entered
          refine ⟨nofun, by simp, ?_, h.deleted⟩
          rw [List.reverse_cons, List.flatten_append, flatten_reverse_of_flatten spared.2, spared.1]
          rfl
  | commit =>
      obtain rfl := Option.some.inj moved
      obtain rfl := Option.some.inj entered
      rw [h.hooked.rootEnd]
      exact ⟨nofun, rfl, rfl, by simp [h.deleted, noted]⟩
  | rollback =>
      obtain rfl := Option.some.inj moved
      obtain rfl := Option.some.inj entered
      rw [h.hooked.rollback]
      exact ⟨nofun, rfl, rfl, h.deleted⟩
  | close =>
      obtain rfl := Option.some.inj moved
      obtain rfl := Option.some.inj entered
      have spared : t = [] ∧ outer.flatten = [] := by
        simpa [sparesRegistrations, inside] using spares
      have ends : (SessionAction.close.events outer.length).foldl SyncSession.emit p.session = _ :=
        h.hooked.rootEnd outer.length
      rw [ends]
      refine ⟨nofun, rfl, rfl, ?_⟩
      rw [noted, flatten_reverse_of_flatten spared.2, spared.1, List.append_nil]
      simpa using h.deleted

theorem agrees_fresh : Agrees .fresh := ⟨nofun, rfl, rfl, rfl⟩

theorem Agrees.step (h : Agrees p) (spares : sparesRegistrations action p.ledger = true)
    (moves : p.step action = some q) : Agrees q := by
  cases within : p.ledger.transactions with
  | nil => exact h.step_outside within moves
  | cons t outer => exact h.step_inside within spares moves

/-- As long as no session is closed with registrations in its transaction and no savepoint is
    rolled back with registrations outside of it, storage is asked for exactly the deletions
    that are due. -/
theorem deletes_what_is_due {p : LedgeredSession}
    (run : LedgeredSession.Reaches (fun action ledger => sparesRegistrations action ledger = true)
      .fresh p) :
    p.session.deleted = p.ledger.due := by
  have agrees : Agrees p := by
    induction run with
    | refl => exact agrees_fresh
    | tail _ moves ih =>
        obtain ⟨action, spares, moves⟩ := moves
        exact ih.step spares moves
  exact agrees.deleted

/-- The erasure of subject 100, which owns a stored archive. -/
def exampleErasure : SessionAction := .minimiseExportArtifacts 100 [exampleArtifact .ready]

theorem deletes_what_is_due_example :
    ∃ p : LedgeredSession, p.session.deleted = p.ledger.due ∧
      p.session.deleted = [⟨.local, "exports/10.zip"⟩] :=
  ⟨_, deletes_what_is_due (.tail (.tail (.tail .refl ⟨.begin, rfl, rfl⟩)
    ⟨exampleErasure, rfl, rfl⟩) ⟨.commit, rfl, rfl⟩), by decide⟩

/-! ## Sessions -/

/-- Take the listed actions, in order. -/
def LedgeredSession.play : List SessionAction → LedgeredSession → Option LedgeredSession
  | [], p => some p
  | action :: rest, p => (p.step action).bind (play rest)

theorem LedgeredSession.reaches_of_play {actions : List SessionAction}
    (h : play actions p = some q) : Reaches (fun _ _ => True) p q := by
  induction actions generalizing p with
  | nil =>
      cases h
      exact .refl
  | cons action rest ih =>
      obtain ⟨middle, first, rest⟩ := Option.bind_eq_some_iff.mp h
      exact .head ⟨action, trivial, first⟩ (ih rest)

/-- A savepoint that is rolled back takes a registration made before it along: the archive is
    not deleted with the commit. -/
example : (LedgeredSession.play
    [.begin, exampleErasure, .beginNested, .rollbackNested, .commit] .fresh).map
      (fun p => (p.session.deleted, p.ledger.due)) =
        some ([], [⟨.local, "exports/10.zip"⟩]) := by decide

/-- The session is closed without a commit, and the archive is deleted. -/
theorem close_deletes_uncommitted : ¬DeletesWhatIsDue fun _ _ => True := by
  intro claim
  have played : (LedgeredSession.play [.begin, exampleErasure, .close] .fresh).map
      (fun p => (p.session.deleted, p.ledger.due)) = some ([⟨.local, "exports/10.zip"⟩], []) := by
    decide
  obtain ⟨p, run, seen⟩ := Option.map_eq_some_iff.mp played
  have same := claim p (LedgeredSession.reaches_of_play run)
  simp only [Prod.mk.injEq] at seen
  rw [seen.1, seen.2] at same
  cases same

end SaasTemplate.Privacy
