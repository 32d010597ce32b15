import SaasTemplate.Isolation.LimitedPass
import SaasTemplate.Audit.Model

/-! # Audit retention, run after run

The maintenance pass and the service's own minimiser over a table of audit events, and
what repeated runs at one time do. Both store JSON `null` in `metadata_json`, which their
selection takes for something still to be removed: a minimised row is found again by every
later run and keeps its place at the head of the batch.
-/

namespace SaasTemplate.Audit

open Isolation.LimitedPass

/-- The audit events, each under its own id. -/
structure AuditTable where
  rows : List (Uuid × AuditEvent)
  nodup : (rows.map (·.1)).Nodup

namespace AuditTable

def row (table : AuditTable) (k : Uuid) : Option AuditEvent := table.rows.lookup k

/-- `order_by(AuditEvent.created_at.asc(), AuditEvent.id.asc())`. -/
def before (a b : Uuid × AuditEvent) : Bool :=
  a.2.createdAt < b.2.createdAt || (a.2.createdAt == b.2.createdAt && a.1 ≤ b.1)

/-- The ids that a candidate query with limit `limit` returns. -/
def candidates (p : AuditEvent → Bool) (limit : Nat) (table : AuditTable) : List Uuid :=
  found before p limit table.rows

/-- `update(AuditEvent).where(AuditEvent.id.in_(ids), p)`. -/
def anonymise (ids : List Uuid) (p : AuditEvent → Bool) (table : AuditTable) : AuditTable where
  rows := written ids p AuditEvent.anonymised table.rows
  nodup := by rw [keys_written]; exact table.nodup

end AuditTable

/-- What one run did: the ids it selected, those its updates matched, and the table after it. -/
structure RetentionRun where
  selected : List Uuid
  updated : List Uuid
  table : AuditTable

/-- The number that a run reports. -/
def RetentionRun.count (run : RetentionRun) : Nat := run.updated.length

/-- Select a batch and rewrite it, the update repeating the predicates. -/
def anonymiseBatch (p : AuditEvent → Bool) (limit : Nat) (table : AuditTable) : RetentionRun :=
  let ids := table.candidates p limit
  if ids.isEmpty then ⟨[], [], table⟩
  else ⟨ids, counted ids p table.rows, table.anonymise ids p⟩

/-- `_minimise_retained_audit_events`, not as a dry run. -/
def minimiseRetainedAuditEvents (settings : AuditSettings) (now : Time) (limit : Nat)
    (table : AuditTable) : RetentionRun :=
  anonymiseBatch (AuditEvent.retained settings now) limit table

/-- `AuditEventRepository.anonymise_events_older_than`. -/
def anonymiseEventsOlderThan (category : AuditCategory) (createdBefore now : Time)
    (batchSize : Nat) (table : AuditTable) : RetentionRun :=
  anonymiseBatch (AuditEvent.eligible category createdBefore now) batchSize table

/-- `retention_windows`, with the cutoffs. -/
def retentionWindows (settings : AuditSettings) (now : Time) : List (AuditCategory × Time) :=
  [(.tenant, now - timedelta settings.retentionDays),
   (.platform, now - timedelta settings.retentionDays),
   (.security, now - timedelta settings.securityRetentionDays),
   (.compliance, now - timedelta settings.complianceRetentionDays)]

/-- The loop over the retention windows. -/
def anonymiseWindows (now : Time) (batchSize : Nat) :
    List (AuditCategory × Time) → AuditTable → RetentionRun
  | [], table => ⟨[], [], table⟩
  | (category, createdBefore) :: windows, table =>
      let first := anonymiseEventsOlderThan category createdBefore now batchSize table
      let others := anonymiseWindows now batchSize windows first.table
      ⟨first.selected ++ others.selected, first.updated ++ others.updated, others.table⟩

/-- `AuditEventService.anonymise_expired_events`. -/
def anonymiseExpiredEvents (settings : AuditSettings) (now : Time) (table : AuditTable) :
    RetentionRun :=
  anonymiseWindows now settings.anonymisationBatchSize (retentionWindows settings now) table

/-! ## Convergence -/

/-- The table after `n` runs. -/
def afterRuns (run : AuditTable → RetentionRun) (n : Nat) (table : AuditTable) : AuditTable :=
  (fun t => (run t).table)^[n] table

/-- The actor, the reason, the metadata, the address and the user agent are removed. -/
def AuditEvent.isMinimised (e : AuditEvent) : Bool :=
  e.actorUserId.isNone && e.reason.isNone && e.metadataJson.loaded.isNone && e.ipAddress.isNone &&
    e.userAgent.isNone

/-- Old enough for the maintenance pass, and not on hold. -/
def AuditEvent.dueForPass (settings : AuditSettings) (now : Time) (e : AuditEvent) : Bool :=
  e.retentionAge settings now && e.holdReleased now

/-- Old enough for the service, and not on hold. -/
def AuditEvent.dueForService (settings : AuditSettings) (now : Time) (e : AuditEvent) : Bool :=
  ((retentionWindows settings now).any fun window =>
    e.category == window.1 && e.createdAt < window.2) && e.holdReleased now

/-- What a run minimised is left alone by every later run, and after finitely many runs all
    due events are minimised and a further run reports zero. -/
structure Converges (due : AuditEvent → Bool) (run : AuditTable → RetentionRun)
    (table : AuditTable) : Prop where
  once : ∀ m n k, m < n → k ∈ (run (afterRuns run m table)).updated →
    k ∉ (run (afterRuns run n table)).selected ∧ k ∉ (run (afterRuns run n table)).updated ∧
      (afterRuns run (n + 1) table).row k = (afterRuns run n table).row k
  finishes : ∃ n, (∀ row ∈ (afterRuns run n table).rows, due row.2 = true →
      row.2.isMinimised = true) ∧ (run (afterRuns run n table)).count = 0

/-- No due event has anything but SQL NULL in the columns that retention clears. -/
def NothingToRemove (due : AuditEvent → Bool) (table : AuditTable) : Prop :=
  ∀ row ∈ table.rows, due row.2 = true → row.2.needsRetention = false

theorem isMinimised_of_not_needs {e : AuditEvent} (h : e.needsRetention = false) :
    e.isMinimised = true := by
  simp only [AuditEvent.needsRetention, Bool.or_eq_false_iff, Option.isSome_eq_false_iff] at h
  obtain ⟨⟨⟨⟨actor, reason⟩, metadata⟩, address⟩, agent⟩ := h
  cases column : e.metadataJson <;>
    simp_all [AuditEvent.isMinimised, JsonColumn.isNotNull, JsonColumn.loaded]

/-! ## A minimised row keeps its place in the queue -/

/-- Every candidate query with the column check as its last predicate finds in `later` what
    it finds in `earlier`. -/
def SameQueue (earlier later : AuditTable) : Prop :=
  ∀ (due : AuditEvent → Bool) (limit : Nat), (∀ e, due e.anonymised = due e) →
    later.candidates (fun e => due e && e.needsRetention) limit =
      earlier.candidates (fun e => due e && e.needsRetention) limit

theorem SameQueue.refl (table : AuditTable) : SameQueue table table := fun _ _ _ => rfl

theorem SameQueue.trans {a b c : AuditTable} (ab : SameQueue a b) (bc : SameQueue b c) :
    SameQueue a c := fun due limit keeps => (bc due limit keeps).trans (ab due limit keeps)

/-- The update of a batch leaves the queue as it was: JSON `null` is not SQL NULL. -/
theorem sameQueue_anonymise (ids : List Uuid) {p : AuditEvent → Bool}
    (needed : ∀ e, p e = true → e.needsRetention = true) (table : AuditTable) :
    SameQueue table (table.anonymise ids p) := by
  intro due limit keeps
  refine found_written (fun e meets => ?_) (fun k e row => ⟨rfl, rfl⟩)
  simp only [keeps, AuditEvent.needsRetention_anonymised, needed e meets]

theorem sameQueue_anonymiseBatch {p : AuditEvent → Bool}
    (needed : ∀ e, p e = true → e.needsRetention = true) (limit : Nat) (table : AuditTable) :
    SameQueue table (anonymiseBatch p limit table).table := by
  unfold anonymiseBatch
  simp only
  split
  · exact .refl table
  · exact sameQueue_anonymise _ needed table

theorem selected_anonymiseBatch (p : AuditEvent → Bool) (limit : Nat) (table : AuditTable) :
    (anonymiseBatch p limit table).selected = table.candidates p limit := by
  unfold anonymiseBatch
  simp only
  split
  · rename_i empty
    exact (List.isEmpty_iff.mp empty).symm
  · rfl

/-- What a batch selects it also updates. -/
theorem updated_anonymiseBatch {p : AuditEvent → Bool} {limit : Nat} {table : AuditTable} {k : Uuid}
    (here : k ∈ (anonymiseBatch p limit table).selected) :
    k ∈ (anonymiseBatch p limit table).updated := by
  rw [selected_anonymiseBatch] at here
  have some_row : (table.candidates p limit).isEmpty = false := by
    cases found : table.candidates p limit with
    | nil => rw [found] at here; cases here
    | cons _ _ => rfl
  simp only [anonymiseBatch, some_row, Bool.false_eq_true, if_false]
  exact counted_of_found here

/-- A batch of nothing leaves the table alone. -/
theorem anonymiseBatch_of_none {p : AuditEvent → Bool} {limit : Nat} {table : AuditTable}
    (h : table.candidates p limit = []) : anonymiseBatch p limit table = ⟨[], [], table⟩ := by
  simp [anonymiseBatch, h]

theorem needs_of_retained {settings : AuditSettings} {now : Time} {e : AuditEvent}
    (h : e.retained settings now = true) : e.needsRetention = true :=
  (Bool.and_eq_true_iff.mp h).2

theorem needs_of_eligible {category : AuditCategory} {createdBefore now : Time} {e : AuditEvent}
    (h : e.eligible category createdBefore now = true) : e.needsRetention = true :=
  (Bool.and_eq_true_iff.mp h).2

/-- A run of the service selects what the windows select, one after the other. -/
theorem selected_anonymiseWindows (now : Time) (batchSize : Nat)
    (windows : List (AuditCategory × Time)) (table : AuditTable) :
    SameQueue table (anonymiseWindows now batchSize windows table).table ∧
      (anonymiseWindows now batchSize windows table).selected =
        windows.flatMap fun window =>
          table.candidates (AuditEvent.eligible window.1 window.2 now) batchSize := by
  induction windows generalizing table with
  | nil => exact ⟨.refl table, rfl⟩
  | cons window windows ih =>
      obtain ⟨category, createdBefore⟩ := window
      have first : SameQueue table
          (anonymiseEventsOlderThan category createdBefore now batchSize table).table :=
        sameQueue_anonymiseBatch (fun _ => needs_of_eligible) batchSize table
      obtain ⟨others, selected⟩ :=
        ih (anonymiseEventsOlderThan category createdBefore now batchSize table).table
      refine ⟨first.trans others, ?_⟩
      simp only [anonymiseWindows, List.flatMap_cons, selected]
      congr 1
      · exact selected_anonymiseBatch _ batchSize table
      · refine List.flatMap_congr fun later _ => ?_
        exact first (fun e => e.category == later.1 && e.createdAt < later.2 && e.holdReleased now)
          batchSize fun e => rfl

theorem updated_anonymiseWindows {now : Time} {batchSize : Nat} {k : Uuid}
    (windows : List (AuditCategory × Time)) (table : AuditTable)
    (here : k ∈ (anonymiseWindows now batchSize windows table).selected) :
    k ∈ (anonymiseWindows now batchSize windows table).updated := by
  induction windows generalizing table with
  | nil => cases here
  | cons window windows ih =>
      simp only [anonymiseWindows, List.mem_append] at here ⊢
      rcases here with first | others
      · exact .inl (updated_anonymiseBatch first)
      · exact .inr (ih _ others)

theorem anonymiseWindows_of_none {now : Time} {batchSize : Nat} {table : AuditTable}
    (windows : List (AuditCategory × Time))
    (h : ∀ window ∈ windows,
      table.candidates (AuditEvent.eligible window.1 window.2 now) batchSize = []) :
    anonymiseWindows now batchSize windows table = ⟨[], [], table⟩ := by
  induction windows with
  | nil => rfl
  | cons window windows ih =>
      have first := anonymiseBatch_of_none (h window List.mem_cons_self)
      have others := ih fun later member => h later (List.mem_cons_of_mem window member)
      simp only [anonymiseWindows, anonymiseEventsOlderThan, first, others, List.append_nil]

/-! ## Runs of both minimisers -/

/-- What the two minimisers have in common: a run selects by the queue and leaves the queue as
    it was, updates what it selects, and does nothing exactly when nothing is to be removed. -/
structure Requeues (due : AuditEvent → Bool) (run : AuditTable → RetentionRun) : Prop where
  queue : ∀ table, SameQueue table (run table).table
  selected : ∀ {a b}, SameQueue a b → (run b).selected = (run a).selected
  updated : ∀ {table k}, k ∈ (run table).selected → k ∈ (run table).updated
  idle : ∀ {table}, NothingToRemove due table → run table = ⟨[], [], table⟩
  finds : ∀ {table}, ¬NothingToRemove due table → (run table).selected ≠ []

theorem exists_of_not_nothingToRemove {due : AuditEvent → Bool} {table : AuditTable}
    (h : ¬NothingToRemove due table) :
    ∃ row ∈ table.rows, due row.2 = true ∧ row.2.needsRetention = true := by
  simpa only [NothingToRemove, not_forall, exists_prop, Bool.not_eq_false] using h

theorem requeues_minimiseRetainedAuditEvents (settings : AuditSettings) (now : Time) {limit : Nat}
    (positive : 0 < limit) :
    Requeues (AuditEvent.dueForPass settings now)
      (minimiseRetainedAuditEvents settings now limit) where
  queue table := sameQueue_anonymiseBatch (fun _ => needs_of_retained) limit table
  selected {a b} same := by
    simp only [minimiseRetainedAuditEvents, selected_anonymiseBatch]
    exact same (AuditEvent.dueForPass settings now) limit fun e => rfl
  updated := updated_anonymiseBatch
  idle {table} none_due := by
    refine anonymiseBatch_of_none (found_eq_nil fun row member => ?_)
    cases due : row.2.dueForPass settings now with
    | false => exact Bool.and_eq_false_iff.mpr (.inl due)
    | true => exact Bool.and_eq_false_iff.mpr (.inr (none_due row member due))
  finds {table} some_due := by
    obtain ⟨row, member, due, needs⟩ := exists_of_not_nothingToRemove some_due
    rw [minimiseRetainedAuditEvents, selected_anonymiseBatch]
    exact found_ne_nil member (Bool.and_eq_true_iff.mpr ⟨due, needs⟩) positive

theorem dueForService_iff {settings : AuditSettings} {now : Time} {e : AuditEvent} :
    e.dueForService settings now = true ↔ ∃ window ∈ retentionWindows settings now,
      (e.category == window.1 && e.createdAt < window.2 && e.holdReleased now) = true := by
  simp only [AuditEvent.dueForService, Bool.and_eq_true, List.any_eq_true]
  constructor
  · rintro ⟨⟨window, member, fits⟩, released⟩
    exact ⟨window, member, fits, released⟩
  · rintro ⟨window, member, fits, released⟩
    exact ⟨⟨window, member, fits⟩, released⟩

theorem requeues_anonymiseExpiredEvents (settings : AuditSettings) (now : Time)
    (positive : 0 < settings.anonymisationBatchSize) :
    Requeues (AuditEvent.dueForService settings now) (anonymiseExpiredEvents settings now) where
  queue table := (selected_anonymiseWindows now _ _ table).1
  selected {a b} same := by
    simp only [anonymiseExpiredEvents, (selected_anonymiseWindows now _ _ _).2]
    refine List.flatMap_congr fun window _ => ?_
    exact same (fun e => e.category == window.1 && e.createdAt < window.2 && e.holdReleased now)
      _ fun e => rfl
  updated := updated_anonymiseWindows _ _
  idle {table} none_due := by
    refine anonymiseWindows_of_none _ fun window member => found_eq_nil fun row here => ?_
    cases fits : row.2.category == window.1 && row.2.createdAt < window.2 &&
        row.2.holdReleased now with
    | false => exact Bool.and_eq_false_iff.mpr (.inl fits)
    | true =>
        have due := dueForService_iff.mpr ⟨window, member, fits⟩
        exact Bool.and_eq_false_iff.mpr (.inr (none_due row here due))
  finds {table} some_due := by
    obtain ⟨row, here, due, needs⟩ := exists_of_not_nothingToRemove some_due
    obtain ⟨window, member, fits⟩ := dueForService_iff.mp due
    have batch : table.candidates (AuditEvent.eligible window.1 window.2 now)
        settings.anonymisationBatchSize ≠ [] :=
      found_ne_nil here (Bool.and_eq_true_iff.mpr ⟨fits, needs⟩) positive
    rw [anonymiseExpiredEvents, (selected_anonymiseWindows now _ _ table).2]
    intro empty
    exact batch (List.flatMap_eq_nil_iff.mp empty window member)

section Runs

variable {due : AuditEvent → Bool} {run : AuditTable → RetentionRun} {table : AuditTable}

@[simp] theorem afterRuns_zero (run : AuditTable → RetentionRun) (table : AuditTable) :
    afterRuns run 0 table = table := rfl

theorem afterRuns_succ (run : AuditTable → RetentionRun) (n : Nat) (table : AuditTable) :
    afterRuns run (n + 1) table = (run (afterRuns run n table)).table :=
  Function.iterate_succ_apply' _ n table

/-- However many runs there were, the queue is the one of the beginning. -/
theorem Requeues.sameQueue_afterRuns (requeues : Requeues due run) (n : Nat) :
    SameQueue table (afterRuns run n table) := by
  induction n with
  | zero => exact .refl table
  | succ n ih =>
      rw [afterRuns_succ]
      exact ih.trans (requeues.queue _)

theorem Requeues.afterRuns_of_nothing (requeues : Requeues due run)
    (nothing : NothingToRemove due table) (n : Nat) : afterRuns run n table = table := by
  induction n with
  | zero => rfl
  | succ n ih => rw [afterRuns_succ, ih, requeues.idle nothing]

theorem Requeues.converges_iff (requeues : Requeues due run) (table : AuditTable) :
    Converges due run table ↔ NothingToRemove due table := by
  constructor
  · intro converges
    by_contra something
    obtain ⟨k, here⟩ := List.exists_mem_of_ne_nil _ (requeues.finds something)
    have again : k ∈ (run (afterRuns run 1 table)).selected := by
      rw [requeues.selected (requeues.sameQueue_afterRuns 1)]
      exact here
    exact (converges.once 0 1 k Nat.zero_lt_one (requeues.updated here)).1 again
  · intro nothing
    have idle : ∀ n, run (afterRuns run n table) = ⟨[], [], table⟩ := fun n => by
      rw [requeues.afterRuns_of_nothing nothing n, requeues.idle nothing]
    refine ⟨fun m n k _ here => ?_, 0, fun row member due => ?_, ?_⟩
    · rw [idle] at here
      cases here
    · exact isMinimised_of_not_needs (nothing row member due)
    · rw [idle]
      rfl

end Runs

/-- Repeated runs converge exactly when the first one has nothing to do. -/
theorem audit_retention_converges_iff (settings : AuditSettings) (now : Time) (limit : Nat)
    (table : AuditTable) (limited : 0 < limit)
    (batched : 0 < settings.anonymisationBatchSize) :
    (Converges (AuditEvent.dueForPass settings now)
        (minimiseRetainedAuditEvents settings now limit) table ↔
      NothingToRemove (AuditEvent.dueForPass settings now) table) ∧
    (Converges (AuditEvent.dueForService settings now) (anonymiseExpiredEvents settings now) table ↔
      NothingToRemove (AuditEvent.dueForService settings now) table) :=
  ⟨(requeues_minimiseRetainedAuditEvents settings now limited).converges_iff table,
    (requeues_anonymiseExpiredEvents settings now batched).converges_iff table⟩

/-! ## Events as they are created -/

/-- Recorded by the service, and then perhaps minimised by erasure or by retention. -/
inductive Created : AuditEvent → Prop where
  | recorded {ops : AuditOps} {context : AuditContext} {category : AuditCategory}
      {action : String} {targetType : AuditTargetType} {targetId : Option Uuid}
      {reason metadataJson : Option String} {legalHoldUntil : Option Time} {createdAt : Time}
      {e : AuditEvent} : recordEvent ops context category action targetType targetId reason
        metadataJson legalHoldUntil createdAt = .ok e → Created e
  | erased {e : AuditEvent} (snapshot : AuditTargetSnapshot) : Created e → Created (e.minimised snapshot)
  | retained {e : AuditEvent} : Created e → Created e.anonymised

theorem isNotNull_clearMetadata {column : JsonColumn} (h : column.isNotNull = true) :
    (AuditEvent.clearMetadata column).isNotNull = true := by
  unfold AuditEvent.clearMetadata
  split
  · exact h
  · rfl

theorem Created.metadata_isNotNull {e : AuditEvent} (created : Created e) :
    e.metadataJson.isNotNull = true := by
  induction created with
  | @recorded ops context category action targetType targetId reason metadataJson hold created e is =>
      cases metadataJson with
      | none =>
          cases is
          rfl
      | some document =>
          simp only [recordEvent] at is
          cases checked : ops.validateMetadataJson document with
          | error error => rw [checked] at is; cases is
          | ok _ =>
              rw [checked] at is
              cases is
              rfl
  | erased snapshot _ ih => exact isNotNull_clearMetadata ih
  | retained _ _ => rfl

/-- Of events made by the services, every due one counts as still to be minimised. -/
theorem nothingToRemove_iff_of_created {due : AuditEvent → Bool} {table : AuditTable}
    (created : ∀ row ∈ table.rows, Created row.2) :
    NothingToRemove due table ↔ ∀ row ∈ table.rows, due row.2 = false := by
  have needs : ∀ row ∈ table.rows, row.2.needsRetention = true := fun row member => by
    simp [AuditEvent.needsRetention, (created row member).metadata_isNotNull]
  constructor
  · intro nothing row member
    by_contra due
    simpa [needs row member] using nothing row member (by simpa using due)
  · intro none_due row member due
    rw [none_due row member] at due
    cases due

/-! ## A batch that is full for ever -/

/-- A user's restoration, recorded without metadata. -/
def restoration (user : Uuid) (createdAt : Time) : AuditEvent where
  actorUserId := some user
  category := .platform
  action := "user_restored"
  targetType := .user
  targetId := some user
  reason := none
  metadataJson := .stored none
  ipAddress := none
  userAgent := none
  legalHoldUntil := none
  createdAt := createdAt

def restorations : AuditTable where
  rows := [(1, restoration 7 0), (2, restoration 8 1)]
  nodup := by decide

def oneYearOneRow : AuditSettings where
  retentionDays := 365
  securityRetentionDays := 365
  complianceRetentionDays := 365
  anonymisationBatchSize := 1

theorem audit_retention_converges_iff_example :
    (Converges (AuditEvent.dueForPass oneYearOneRow (timedelta 1))
        (minimiseRetainedAuditEvents oneYearOneRow (timedelta 1) 1) restorations ↔
      NothingToRemove (AuditEvent.dueForPass oneYearOneRow (timedelta 1)) restorations) ∧
    (Converges (AuditEvent.dueForService oneYearOneRow (timedelta 1))
        (anonymiseExpiredEvents oneYearOneRow (timedelta 1)) restorations ↔
      NothingToRemove (AuditEvent.dueForService oneYearOneRow (timedelta 1)) restorations) :=
  audit_retention_converges_iff oneYearOneRow (timedelta 1) 1 restorations (by decide) (by decide)

/-- Two years on, the second run selects the older event again, and a batch of one is full. -/
theorem minimised_event_selected_again :
    ¬ (∀ (settings : AuditSettings) (now : Time) (limit : Nat) (table : AuditTable), 0 < limit →
      0 < settings.anonymisationBatchSize →
      Converges (AuditEvent.dueForPass settings now)
          (minimiseRetainedAuditEvents settings now limit) table ∧
        Converges (AuditEvent.dueForService settings now)
          (anonymiseExpiredEvents settings now) table) := by
  intro converges
  have both := converges oneYearOneRow (timedelta 730) 1 restorations (by decide) (by decide)
  have again := (both.1.once 0 1 1 (by decide) (by decide)).1
  exact again (by decide)

end SaasTemplate.Audit
