import Mathlib.Data.List.Sort
import SaasTemplate.Privacy.CurrentArtifact
import SaasTemplate.Sql.Counts

/-! # The health of executions

What the health check counts, what it reports of the counts, and what the gauge shows after it.
Every count is that of the rows it is named for, as its statement sees them, and the check is
well exactly if no row is failed or stale.
-/

namespace SaasTemplate.Privacy.Health

open SaasTemplate.Sql

/-! ## Rows -/

def executionStatusText : ExecutionStatus → String
  | .notStarted => "not_started"
  | .queued => "queued"
  | .processing => "processing"
  | .ready => "ready"
  | .failed => "failed"
  | .partiallyFulfilled => "partially_fulfilled"
  | .delivered => "delivered"

def artifactStatusText : ExportArtifactStatus → String
  | .queued => "queued"
  | .processing => "processing"
  | .ready => "ready"
  | .failed => "failed"
  | .expired => "expired"
  | .cancelled => "cancelled"

structure HealthDb where
  requests : List (Uuid × DataSubjectRequest)
  /-- The column `updated_at` of the requests. -/
  updatedAt : Uuid → Time
  artifacts : List (Uuid × ExportArtifact)

def dsrJobRequestTypes : List DataSubjectRequestType := [.export, .erase]

def dsrExecutionStatuses : List ExecutionStatus :=
  [.notStarted, .queued, .processing, .ready, .failed, .partiallyFulfilled, .delivered]

def staleDsrStatuses : List ExecutionStatus := [.queued, .processing]

def failedDsrStatuses : List ExecutionStatus := [.failed, .partiallyFulfilled]

def exportArtifactStatuses : List ExportArtifactStatus :=
  [.queued, .processing, .ready, .failed, .expired, .cancelled]

def staleExportArtifactStatuses : List ExportArtifactStatus := [.queued, .processing, .ready]

/-! ## Queries -/

/-- A job that is counted: `request_type IN (...)`, with `_non_cancelled_dsr_predicate`. -/
def isJob (types : List DataSubjectRequestType) (r : DataSubjectRequest) : Bool :=
  types.contains r.requestType && r.status != .cancelled

/-- `coalesce(execution_started_at, updated_at, created_at)`; a row always has `updated_at`. -/
def staleSince (db : HealthDb) (row : Uuid × DataSubjectRequest) : Time :=
  row.2.executionStartedAt.getD (db.updatedAt row.1)

def activeExportProcessingLease (db : HealthDb) (checkedAt : Time) (id : Uuid) : Bool :=
  db.artifacts.any fun a => a.2.dataSubjectRequestId == id && a.2.status == .processing &&
    a.2.processingLeaseExpiresAt.any (checkedAt < ·)

def isStaleJob (db : HealthDb) (types : List DataSubjectRequestType)
    (statuses : List ExecutionStatus) (checkedAt staleCutoff : Time)
    (row : Uuid × DataSubjectRequest) : Bool :=
  isJob types row.2 && statuses.contains row.2.executionStatus &&
    decide (staleSince db row ≤ staleCutoff) &&
    (row.2.requestType != .export || row.2.executionStatus != .processing ||
      !activeExportProcessingLease db checkedAt row.1)

/-- `_non_cancelled_export_dsr_exists`. -/
def nonCancelledExportDsrExists (db : HealthDb) (a : ExportArtifact) : Bool :=
  db.requests.any fun row => row.1 == a.dataSubjectRequestId && row.2.requestType == .export &&
    row.2.status != .cancelled

def isCurrentFailedArtifact (db : HealthDb) (a : ExportArtifact) : Bool :=
  a.status == .failed && nonCancelledExportDsrExists db a &&
    !newerArtifactForSameDsrExists db.artifacts a

def isStaleArtifact (db : HealthDb) (checkedAt staleCutoff : Time) (a : ExportArtifact) : Bool :=
  nonCancelledExportDsrExists db a &&
    (a.status == .queued && decide (a.queuedAt ≤ staleCutoff) ||
      a.status == .processing && a.processingLeaseExpiresAt.any (· ≤ checkedAt) ||
      a.status == .processing && a.processingLeaseExpiresAt.isNone &&
        a.startedAt.any (· ≤ staleCutoff) ||
      a.status == .ready && decide (a.expiresAt ≤ checkedAt) && a.downloadedAt.isNone &&
        a.downloadCount == 0 && !newerArtifactForSameDsrExists db.artifacts a)

def requestKeys (rows : List (Uuid × DataSubjectRequest)) :
    List (DataSubjectRequestType × ExecutionStatus) :=
  rows.map fun row => (row.2.requestType, row.2.executionStatus)

abbrev RequestCounts := List (DataSubjectRequestType × List (ExecutionStatus × Nat))

/-- `_empty_request_counts`. -/
def emptyRequestCounts (types : List DataSubjectRequestType) (statuses : List ExecutionStatus) :
    RequestCounts :=
  tabulateNested types statuses fun _ => 0

def countDsrRequestsByStatus (grouping : Grouping) (db : HealthDb)
    (types : List DataSubjectRequestType) (statuses : List ExecutionStatus) :
    Option RequestCounts :=
  fillNested (grouping.groups (requestKeys (db.requests.filter fun row => isJob types row.2)))
    (emptyRequestCounts types statuses)

def countStaleDsrRequestsByStatus (grouping : Grouping) (db : HealthDb)
    (types : List DataSubjectRequestType) (statuses : List ExecutionStatus)
    (checkedAt staleCutoff : Time) : Option RequestCounts :=
  fillNested
    (grouping.groups (requestKeys
      (db.requests.filter (isStaleJob db types statuses checkedAt staleCutoff))))
    (emptyRequestCounts types statuses)

def countExportArtifactsByStatus (grouping : Grouping) (db : HealthDb) :
    List (ExportArtifactStatus × Nat) :=
  fill (grouping.groups (db.artifacts.map (·.2.status)))
    (tabulate exportArtifactStatuses fun _ => 0)

def countCurrentFailedExportArtifacts (db : HealthDb) : Nat :=
  (db.artifacts.filter fun row => isCurrentFailedArtifact db row.2).length

def staleArtifacts (db : HealthDb) (checkedAt staleCutoff : Time) : List (Uuid × ExportArtifact) :=
  db.artifacts.filter fun row => isStaleArtifact db checkedAt staleCutoff row.2

def countStaleExportArtifactsByStatus (grouping : Grouping) (db : HealthDb)
    (checkedAt staleCutoff : Time) : List (ExportArtifactStatus × Nat) :=
  fill (grouping.groups ((staleArtifacts db checkedAt staleCutoff).map (·.2.status)))
    (tabulate staleExportArtifactStatuses fun _ => 0)

/-! ## The snapshot -/

structure DsrExecutionHealthSnapshot where
  checkedAt : Time
  status : String
  staleAfterSeconds : Int
  requestCounts : RequestCounts
  staleRequestCounts : RequestCounts
  failedRequestCounts : List (DataSubjectRequestType × Nat)
  exportArtifactCounts : List (ExportArtifactStatus × Nat)
  staleExportArtifactCounts : List (ExportArtifactStatus × Nat)
  staleExportArtifacts : Nat
  failedExportArtifacts : Nat

/-- `sum(dictionary.values())`. -/
def sumValues {κ : Type} (items : List (κ × Nat)) : Nat := (items.map (·.2)).sum

def sumNested (items : RequestCounts) : Nat := (items.map fun item => sumValues item.2).sum

/-- `dictionary.get(key, 0)`. -/
def getCount {κ : Type} [DecidableEq κ] (key : κ) (items : List (κ × Nat)) : Nat :=
  (items.lookup key).getD 0

/-- `_failed_counts_from_request_counts`. -/
def failedCountsFromRequestCounts (items : RequestCounts) : List (DataSubjectRequestType × Nat) :=
  items.map fun item => (item.1, (failedDsrStatuses.map fun status => getCount status item.2).sum)

namespace DsrExecutionHealthSnapshot

variable (s : DsrExecutionHealthSnapshot)

def totalDsrJobs : Nat := sumNested s.requestCounts

def totalFailedDsrJobs : Nat := sumValues s.failedRequestCounts

def totalStaleDsrJobs : Nat := sumNested s.staleRequestCounts

def isDegraded : Bool :=
  decide (0 < s.totalFailedDsrJobs) || decide (0 < s.totalStaleDsrJobs) ||
    decide (0 < s.failedExportArtifacts) || decide (0 < s.staleExportArtifacts)

end DsrExecutionHealthSnapshot

/-! ## Metrics -/

structure PrivacyDsrMetricPoint where
  jobKind : String
  requestType : String
  executionStatus : String
  signal : String
  count : Int
  deriving DecidableEq, Repr

abbrev PrivacyDsrJobPointKey := String × String × String × String

def PrivacyDsrMetricPoint.key (p : PrivacyDsrMetricPoint) : PrivacyDsrJobPointKey :=
  (p.jobKind, p.requestType, p.executionStatus, p.signal)

/-- `sorted(dictionary.items())`: by the keys, which differ. -/
def sortedItems {κ ν : Type} (text : κ → String) (items : List (κ × ν)) : List (κ × ν) :=
  items.insertionSort fun a b => text a.1 ≤ text b.1

def requestPoints (signal : String) (items : RequestCounts) : List PrivacyDsrMetricPoint :=
  (sortedItems requestTypeText items).flatMap fun item =>
    (sortedItems executionStatusText item.2).map fun status =>
      ⟨"dsr_request", requestTypeText item.1, executionStatusText status.1, signal, status.2⟩

def artifactPoint (signal : String) (status : ExportArtifactStatus) (count : Nat) :
    PrivacyDsrMetricPoint :=
  ⟨"export_artifact", requestTypeText .export, artifactStatusText status, signal, count⟩

def DsrExecutionHealthSnapshot.toMetricPoints (s : DsrExecutionHealthSnapshot) :
    List PrivacyDsrMetricPoint :=
  requestPoints "current" s.requestCounts ++ requestPoints "stale" s.staleRequestCounts ++
    ((sortedItems requestTypeText s.requestCounts).flatMap fun item =>
      failedDsrStatuses.map fun status =>
        ⟨"dsr_request", requestTypeText item.1, executionStatusText status, "failed",
          getCount status item.2⟩) ++
    ((sortedItems artifactStatusText s.exportArtifactCounts).map fun item =>
      artifactPoint "current" item.1 item.2) ++
    (staleExportArtifactStatuses.map fun status =>
      artifactPoint "stale" status (getCount status s.staleExportArtifactCounts)) ++
    [artifactPoint "failed" .failed s.failedExportArtifacts]

def allowedJobKinds : List String := ["dsr_request", "export_artifact"]

def allowedRequestTypes : List String := ["export", "erase"]

def allowedSignals : List String := ["current", "failed", "stale"]

def allowedHealthStatuses : List String := ["ok", "degraded"]

/-- `_validate_metric_point`; the keys of its attributes are fixed. -/
def validateMetricPoint (p : PrivacyDsrMetricPoint) : Except String Unit :=
  if p.jobKind ∉ allowedJobKinds then .error s!"Unsupported DSR job kind: {p.jobKind}"
  else if p.requestType ∉ allowedRequestTypes then
    .error s!"Unsupported DSR request type: {p.requestType}"
  else if p.signal ∉ allowedSignals then .error s!"Unsupported DSR metric signal: {p.signal}"
  else if p.count < 0 then .error "DSR metric point count must be non-negative"
  else .ok ()

def validateHealthStatus (status : String) : Except String Unit :=
  if status ∈ allowedHealthStatuses then .ok ()
  else .error s!"Unsupported DSR health status: {status}"

/-- `_last_privacy_dsr_job_points`. -/
abbrev JobPoints := List (PrivacyDsrJobPointKey × Int)

/-- What the gauge shows after the snapshot: the points, or what it showed, if they are refused. -/
def recordPrivacyDsrHealthSnapshot (status : String) (points : List PrivacyDsrMetricPoint)
    (last : JobPoints) : JobPoints :=
  match (do validateHealthStatus status; points.forM validateMetricPoint : Except String Unit) with
  | .error _ => last
  | .ok () => fill (points.map fun p => (p.key, p.count)) []

/-! ## The check -/

/-- A snapshot that is not degraded is well. -/
def DsrExecutionHealthSnapshot.rated (s : DsrExecutionHealthSnapshot) :
    DsrExecutionHealthSnapshot :=
  if s.isDegraded then s else { s with status := "ok" }

/-- The statements of a check, between which others may commit. -/
inductive HealthQuery where
  | requests | staleRequests | artifacts | failedArtifacts | staleArtifacts
  deriving DecidableEq

/-- `get_privacy_dsr_execution_health`, with the snapshot and what the gauge shows after it. -/
def getPrivacyDsrExecutionHealth (grouping : Grouping) (seen : HealthQuery → HealthDb)
    (checkedAt : Time) (staleAfter : Duration) (emitMetrics : Bool) (last : JobPoints) :
    Except String (DsrExecutionHealthSnapshot × JobPoints) :=
  if staleAfter ≤ 0 then .error "DSR execution stale_after must be positive"
  else
    let staleCutoff := checkedAt - staleAfter
    match
      countDsrRequestsByStatus grouping (seen .requests) dsrJobRequestTypes dsrExecutionStatuses,
      countStaleDsrRequestsByStatus grouping (seen .staleRequests) dsrJobRequestTypes
        staleDsrStatuses checkedAt staleCutoff with
    | some requestCounts, some staleRequestCounts =>
        let staleCounts :=
          countStaleExportArtifactsByStatus grouping (seen .staleArtifacts) checkedAt staleCutoff
        let snapshot : DsrExecutionHealthSnapshot := .rated
          { checkedAt
            status := "degraded"
            staleAfterSeconds := staleAfter
            requestCounts
            staleRequestCounts
            failedRequestCounts := failedCountsFromRequestCounts requestCounts
            exportArtifactCounts := countExportArtifactsByStatus grouping (seen .artifacts)
            staleExportArtifactCounts := staleCounts
            staleExportArtifacts := sumValues staleCounts
            failedExportArtifacts := countCurrentFailedExportArtifacts (seen .failedArtifacts) }
        .ok (snapshot, if emitMetrics then
          recordPrivacyDsrHealthSnapshot snapshot.status snapshot.toMetricPoints last else last)
    | _, _ => .error "KeyError"

/-! ## What is counted -/

section Counted

variable {grouping : Grouping} {db : HealthDb} {checkedAt staleCutoff : Time}
  {types : List DataSubjectRequestType} {statuses : List ExecutionStatus}
  {t : DataSubjectRequestType} {s : ExecutionStatus}

/-- Jobs of this type in this status. -/
def ofKind (t : DataSubjectRequestType) (s : ExecutionStatus) (row : Uuid × DataSubjectRequest) :
    Bool :=
  row.2.requestType == t && row.2.executionStatus == s

theorem occurrences_requestKeys (rows : List (Uuid × DataSubjectRequest)) :
    occurrences (requestKeys rows) (t, s) = (rows.filter (ofKind t s)).length := by
  unfold occurrences requestKeys List.count
  rw [List.countP_map, List.countP_eq_length_filter]
  congr 1
  refine List.filter_congr fun row _ => Bool.eq_iff_iff.mpr ?_
  simp [ofKind]

theorem occurrences_statuses (rows : List (Uuid × ExportArtifact)) (s : ExportArtifactStatus) :
    occurrences (rows.map (·.2.status)) s = (rows.filter (·.2.status == s)).length := by
  rw [occurrences, List.count, List.countP_map, List.countP_eq_length_filter]
  congr 2

theorem countDsrRequestsByStatus_eq (distinct : types.Nodup) (distinct' : statuses.Nodup)
    (all : ∀ s, s ∈ statuses) : countDsrRequestsByStatus grouping db types statuses =
      some (tabulateNested types statuses
        (occurrences (requestKeys (db.requests.filter fun row => isJob types row.2)))) := by
  refine (grouping.grouped _).fillNested_eq distinct distinct' fun key member => ?_
  obtain ⟨row, inside, rfl⟩ := List.mem_map.mp member
  have job := (List.mem_filter.mp inside).2
  exact ⟨List.contains_iff_mem.mp (Bool.and_eq_true_iff.mp job).1, all _⟩

theorem countStaleDsrRequestsByStatus_eq (distinct : types.Nodup) (distinct' : statuses.Nodup) :
    countStaleDsrRequestsByStatus grouping db types statuses checkedAt staleCutoff =
      some (tabulateNested types statuses (occurrences (requestKeys
        (db.requests.filter (isStaleJob db types statuses checkedAt staleCutoff))))) := by
  refine (grouping.grouped _).fillNested_eq distinct distinct' fun key member => ?_
  obtain ⟨row, inside, rfl⟩ := List.mem_map.mp member
  have stale := (List.mem_filter.mp inside).2
  simp only [isStaleJob, isJob, Bool.and_eq_true, List.contains_iff_mem] at stale
  exact ⟨stale.1.1.1.1, stale.1.1.2⟩

theorem countExportArtifactsByStatus_eq : countExportArtifactsByStatus grouping db =
    tabulate exportArtifactStatuses (occurrences (db.artifacts.map (·.2.status))) :=
  (grouping.grouped _).fill_eq (by decide) fun s _ => by cases s <;> decide

theorem status_of_isStaleArtifact {a : ExportArtifact}
    (stale : isStaleArtifact db checkedAt staleCutoff a = true) :
    a.status ∈ staleExportArtifactStatuses := by
  simp only [isStaleArtifact, Bool.and_eq_true, Bool.or_eq_true, beq_iff_eq] at stale
  rcases stale.2 with ((queued | leased) | unleased) | ready
  · exact queued.1 ▸ by decide
  · exact leased.1 ▸ by decide
  · exact unleased.1.1 ▸ by decide
  · exact ready.1.1.1.1 ▸ by decide

theorem countStaleExportArtifactsByStatus_eq :
    countStaleExportArtifactsByStatus grouping db checkedAt staleCutoff =
      tabulate staleExportArtifactStatuses
        (occurrences ((staleArtifacts db checkedAt staleCutoff).map (·.2.status))) := by
  refine (grouping.grouped _).fill_eq (by decide) fun key member => ?_
  obtain ⟨row, inside, rfl⟩ := List.mem_map.mp member
  exact status_of_isStaleArtifact (List.mem_filter.mp inside).2

end Counted

/-! ## What is reported -/

def requestLabel (t : DataSubjectRequestType) (s : ExecutionStatus) (signal : String) :
    PrivacyDsrJobPointKey :=
  ("dsr_request", requestTypeText t, executionStatusText s, signal)

def artifactLabel (s : ExportArtifactStatus) (signal : String) : PrivacyDsrJobPointKey :=
  ("export_artifact", "export", artifactStatusText s, signal)

def job (row : Uuid × DataSubjectRequest) : Bool := isJob dsrJobRequestTypes row.2

def staleJob (db : HealthDb) (checkedAt staleCutoff : Time) (row : Uuid × DataSubjectRequest) :
    Bool :=
  isStaleJob db dsrJobRequestTypes staleDsrStatuses checkedAt staleCutoff row

/-- What the labels of the gauge stand for. -/
inductive Reports (seen : HealthQuery → HealthDb) (checkedAt staleCutoff : Time) :
    PrivacyDsrJobPointKey → Int → Prop
  | current {t : DataSubjectRequestType} (s : ExecutionStatus) :
      t ∈ dsrJobRequestTypes → Reports seen checkedAt staleCutoff (requestLabel t s "current")
        (((seen .requests).requests.filter job).filter (ofKind t s)).length
  | stale {t : DataSubjectRequestType} {s : ExecutionStatus} :
      t ∈ dsrJobRequestTypes → s ∈ staleDsrStatuses →
        Reports seen checkedAt staleCutoff (requestLabel t s "stale")
          (((seen .staleRequests).requests.filter
            (staleJob (seen .staleRequests) checkedAt staleCutoff)).filter (ofKind t s)).length
  | failed {t : DataSubjectRequestType} {s : ExecutionStatus} :
      t ∈ dsrJobRequestTypes → s ∈ failedDsrStatuses →
        Reports seen checkedAt staleCutoff (requestLabel t s "failed")
          (((seen .requests).requests.filter job).filter (ofKind t s)).length
  | currentArtifact (s : ExportArtifactStatus) :
      Reports seen checkedAt staleCutoff (artifactLabel s "current")
        ((seen .artifacts).artifacts.filter (·.2.status == s)).length
  | staleArtifact {s : ExportArtifactStatus} : s ∈ staleExportArtifactStatuses →
      Reports seen checkedAt staleCutoff (artifactLabel s "stale")
        ((staleArtifacts (seen .staleArtifacts) checkedAt staleCutoff).filter
          (·.2.status == s)).length
  | failedArtifact :
      Reports seen checkedAt staleCutoff (artifactLabel .failed "failed")
        (countCurrentFailedExportArtifacts (seen .failedArtifacts))

/-- No job and no artifact is failed or stale, as far as the statements see. -/
structure Healthy (seen : HealthQuery → HealthDb) (checkedAt staleCutoff : Time) : Prop where
  unfailed : ∀ row ∈ (seen .requests).requests, job row = true →
    row.2.executionStatus ∉ failedDsrStatuses
  unstale : ∀ row ∈ (seen .staleRequests).requests,
    staleJob (seen .staleRequests) checkedAt staleCutoff row = false
  unfailedArtifacts : ∀ row ∈ (seen .failedArtifacts).artifacts,
    isCurrentFailedArtifact (seen .failedArtifacts) row.2 = false
  unstaleArtifacts : ∀ row ∈ (seen .staleArtifacts).artifacts,
    isStaleArtifact (seen .staleArtifacts) checkedAt staleCutoff row.2 = false

/-- Of an artifact that is not counted as failed the service finds no failure. -/
theorem latest_not_failed {db : HealthDb} {row : Uuid × DataSubjectRequest}
    {listing : List (Uuid × ExportArtifact)} {a : Uuid × ExportArtifact}
    (unfailed : ∀ row ∈ db.artifacts, isCurrentFailedArtifact db row.2 = false)
    (here : row ∈ db.requests) (exports : row.2.requestType = .export)
    (going : row.2.status ≠ .cancelled) (listed : GetByDsrId db.artifacts row.1 listing)
    (latest : latestArtifact listing = some a) : a.2.status ≠ .failed := by
  intro failed
  obtain ⟨stored, belongs, newest⟩ := listed.isCurrent latest
  have counted : nonCancelledExportDsrExists db a.2 = true :=
    List.any_eq_true.mpr ⟨row, here, by simp [belongs, exports, going]⟩
  have settled := unfailed a stored
  simp [isCurrentFailedArtifact, failed, counted, newest] at settled

/-! ## Points -/

section Points

variable {types : List DataSubjectRequestType} {statuses : List ExecutionStatus}
  {f : DataSubjectRequestType × ExecutionStatus → Nat} {p : PrivacyDsrMetricPoint}

/-- Sorting looks at the keys only. -/
theorem sortedItems_tabulate {κ ν : Type} [DecidableEq κ] (text : κ → String) (keys : List κ)
    (f : κ → ν) : sortedItems text (tabulate keys f) =
      tabulate (keys.insertionSort fun a b => text a ≤ text b) f := by
  exact (List.map_insertionSort _ _ (fun key => (key, f key)) keys fun _ _ _ _ => Iff.rfl).symm

theorem mem_sortedItems_tabulate {κ ν : Type} [DecidableEq κ] {text : κ → String} {keys : List κ}
    {f : κ → ν} {item : κ × ν} :
    item ∈ sortedItems text (tabulate keys f) ↔ ∃ key ∈ keys, item = (key, f key) := by
  rw [sortedItems, List.mem_insertionSort, mem_tabulate]
  constructor
  · exact fun is => ⟨item.1, is.1, Prod.ext rfl is.2⟩
  · rintro ⟨key, known, rfl⟩
    exact ⟨known, rfl⟩

theorem mem_requestPoints {signal : String} :
    p ∈ requestPoints signal (tabulateNested types statuses f) ↔ ∃ t ∈ types, ∃ s ∈ statuses,
      p = ⟨"dsr_request", requestTypeText t, executionStatusText s, signal, f (t, s)⟩ := by
  rw [requestPoints, List.mem_flatMap]
  constructor
  · rintro ⟨item, inside, there⟩
    obtain ⟨t, known, rfl⟩ := mem_sortedItems_tabulate.mp inside
    obtain ⟨status, inside', rfl⟩ := List.mem_map.mp there
    obtain ⟨s, known', rfl⟩ := mem_sortedItems_tabulate.mp inside'
    exact ⟨t, known, s, known', rfl⟩
  · rintro ⟨t, known, s, known', rfl⟩
    exact ⟨_, mem_sortedItems_tabulate.mpr ⟨t, known, rfl⟩,
      List.mem_map.mpr ⟨_, mem_sortedItems_tabulate.mpr ⟨s, known', rfl⟩, rfl⟩⟩

end Points

/-! ## The snapshot of a check -/

section Check

variable (db : HealthDb) (seen : HealthQuery → HealthDb) (checkedAt : Time) (staleAfter : Duration)

def jobCounts : DataSubjectRequestType × ExecutionStatus → Nat :=
  occurrences (requestKeys (db.requests.filter job))

def staleJobCounts (staleCutoff : Time) : DataSubjectRequestType × ExecutionStatus → Nat :=
  occurrences (requestKeys (db.requests.filter (staleJob db checkedAt staleCutoff)))

/-- The counts of a check, each of its rows. -/
def countedSnapshot (status : String) : DsrExecutionHealthSnapshot :=
  let staleCutoff := checkedAt - staleAfter
  { checkedAt
    status
    staleAfterSeconds := staleAfter
    requestCounts :=
      tabulateNested dsrJobRequestTypes dsrExecutionStatuses (jobCounts (seen .requests))
    staleRequestCounts :=
      tabulateNested dsrJobRequestTypes staleDsrStatuses
        (staleJobCounts (seen .staleRequests) checkedAt staleCutoff)
    failedRequestCounts := tabulate dsrJobRequestTypes fun t =>
      (failedDsrStatuses.map fun s => jobCounts (seen .requests) (t, s)).sum
    exportArtifactCounts :=
      tabulate exportArtifactStatuses (occurrences ((seen .artifacts).artifacts.map (·.2.status)))
    staleExportArtifactCounts := tabulate staleExportArtifactStatuses
      (occurrences ((staleArtifacts (seen .staleArtifacts) checkedAt staleCutoff).map (·.2.status)))
    staleExportArtifacts := (staleArtifacts (seen .staleArtifacts) checkedAt staleCutoff).length
    failedExportArtifacts := countCurrentFailedExportArtifacts (seen .failedArtifacts) }

variable {db seen checkedAt staleAfter} {grouping : Grouping} {status : String}
  {p : PrivacyDsrMetricPoint}

theorem getCount_tabulate {κ : Type} [DecidableEq κ] {keys : List κ} {key : κ} (f : κ → Nat)
    (known : key ∈ keys) : getCount key (tabulate keys f) = f key := by
  rw [getCount, lookup_tabulate f known]
  rfl

theorem failedCounts_tabulate (f : DataSubjectRequestType × ExecutionStatus → Nat) :
    failedCountsFromRequestCounts (tabulateNested dsrJobRequestTypes dsrExecutionStatuses f) =
      tabulate dsrJobRequestTypes fun t => (failedDsrStatuses.map fun s => f (t, s)).sum := by
  rw [failedCountsFromRequestCounts, tabulateNested, tabulate, List.map_map]
  refine List.map_congr_left fun t _ => ?_
  have counts : (failedDsrStatuses.map fun s => getCount s (tabulate dsrExecutionStatuses
      fun s => f (t, s))) = failedDsrStatuses.map fun s => f (t, s) :=
    List.map_congr_left fun s _ => getCount_tabulate _ (by cases s <;> decide)
  simp only [Function.comp_apply, counts]

theorem sumValues_staleArtifacts (staleCutoff : Time) :
    sumValues (tabulate staleExportArtifactStatuses
      (occurrences ((staleArtifacts db checkedAt staleCutoff).map (·.2.status)))) =
      (staleArtifacts db checkedAt staleCutoff).length := by
  rw [sumValues, tabulate, List.map_map]
  refine (sum_counts (by decide) fun key member => ?_).trans (List.length_map _)
  obtain ⟨row, inside, rfl⟩ := List.mem_map.mp member
  exact status_of_isStaleArtifact (List.mem_filter.mp inside).2

/-- A check counts its rows, and takes the points of the snapshot to the gauge. -/
theorem getPrivacyDsrExecutionHealth_eq (positive : 0 < staleAfter) (emitMetrics : Bool)
    (last : JobPoints) :
    let snapshot := (countedSnapshot seen checkedAt staleAfter "degraded").rated
    getPrivacyDsrExecutionHealth grouping seen checkedAt staleAfter emitMetrics last =
      .ok (snapshot, if emitMetrics then
        recordPrivacyDsrHealthSnapshot snapshot.status snapshot.toMetricPoints last
      else last) := by
  intro snapshot
  have requests : countDsrRequestsByStatus grouping (seen .requests) dsrJobRequestTypes
      dsrExecutionStatuses =
      some (tabulateNested dsrJobRequestTypes dsrExecutionStatuses (jobCounts (seen .requests))) :=
    countDsrRequestsByStatus_eq (by decide) (by decide) fun s => by cases s <;> decide
  have stale : countStaleDsrRequestsByStatus grouping (seen .staleRequests)
      dsrJobRequestTypes staleDsrStatuses checkedAt (checkedAt - staleAfter) =
      some (tabulateNested dsrJobRequestTypes staleDsrStatuses
        (staleJobCounts (seen .staleRequests) checkedAt (checkedAt - staleAfter))) :=
    countStaleDsrRequestsByStatus_eq (by decide) (by decide)
  rw [getPrivacyDsrExecutionHealth, if_neg (Int.not_le.mpr positive)]
  simp only [requests, stale, countExportArtifactsByStatus_eq, countStaleExportArtifactsByStatus_eq,
    failedCounts_tabulate, sumValues_staleArtifacts]
  rfl

theorem rated_countedSnapshot (seen : HealthQuery → HealthDb) (checkedAt : Time)
    (staleAfter : Duration) :
    ∃ status ∈ allowedHealthStatuses,
    (countedSnapshot seen checkedAt staleAfter "degraded").rated =
      countedSnapshot seen checkedAt staleAfter status := by
  rw [DsrExecutionHealthSnapshot.rated]
  split
  · exact ⟨"degraded", by decide, rfl⟩
  · exact ⟨"ok", by decide, rfl⟩

theorem status_rated (s : DsrExecutionHealthSnapshot) (degraded : s.status = "degraded") :
    s.rated.status = "ok" ↔ s.isDegraded = false := by
  rw [DsrExecutionHealthSnapshot.rated]
  cases s.isDegraded with
  | true => simp [degraded]
  | false => simp

theorem sumNested_counts {rows : List (Uuid × DataSubjectRequest)}
    {types : List DataSubjectRequestType} {statuses : List ExecutionStatus} (distinct : types.Nodup)
    (distinct' : statuses.Nodup)
    (all : ∀ row ∈ rows, row.2.requestType ∈ types ∧ row.2.executionStatus ∈ statuses) :
    (types.map fun t => (statuses.map fun s => occurrences (requestKeys rows) (t, s)).sum).sum =
      rows.length := by
  refine (sum_counts_nested distinct distinct' fun key member => ?_).trans (List.length_map _)
  obtain ⟨row, inside, rfl⟩ := List.mem_map.mp member
  exact all row inside

theorem sumNested_tabulateNested (types : List DataSubjectRequestType)
    (statuses : List ExecutionStatus) (f : DataSubjectRequestType × ExecutionStatus → Nat) :
    sumNested (tabulateNested types statuses f) =
      (types.map fun t => (statuses.map fun s => f (t, s)).sum).sum := by
  rw [sumNested, tabulateNested, tabulate, List.map_map]
  congr 1
  refine List.map_congr_left fun t _ => ?_
  rw [Function.comp_apply, sumValues, tabulate, List.map_map]
  rfl

theorem type_of_job {row : Uuid × DataSubjectRequest} (is : job row = true) :
    row.2.requestType ∈ dsrJobRequestTypes :=
  List.contains_iff_mem.mp (Bool.and_eq_true_iff.mp is).1

theorem totalDsrJobs_countedSnapshot :
    (countedSnapshot seen checkedAt staleAfter status).totalDsrJobs =
      ((seen .requests).requests.filter job).length := by
  refine (sumNested_tabulateNested _ _ _).trans (sumNested_counts (by decide) (by decide) ?_)
  intro row member
  exact ⟨type_of_job (List.mem_filter.mp member).2, by cases row.2.executionStatus <;> decide⟩

theorem totalStaleDsrJobs_countedSnapshot :
    (countedSnapshot seen checkedAt staleAfter status).totalStaleDsrJobs =
      ((seen .staleRequests).requests.filter
          (staleJob (seen .staleRequests) checkedAt (checkedAt - staleAfter))).length := by
  refine (sumNested_tabulateNested _ _ _).trans (sumNested_counts (by decide) (by decide) ?_)
  intro row member
  have stale := (List.mem_filter.mp member).2
  simp only [staleJob, isStaleJob, isJob, Bool.and_eq_true, List.contains_iff_mem] at stale
  exact ⟨stale.1.1.1.1, stale.1.1.2⟩

def failedJob (row : Uuid × DataSubjectRequest) : Bool :=
  job row && failedDsrStatuses.contains row.2.executionStatus

theorem totalFailedDsrJobs_countedSnapshot :
    (countedSnapshot seen checkedAt staleAfter status).totalFailedDsrJobs =
      ((seen .requests).requests.filter failedJob).length := by
  have same : ∀ t, ∀ s ∈ failedDsrStatuses,
      jobCounts (seen .requests) (t, s) =
        occurrences (requestKeys ((seen .requests).requests.filter failedJob)) (t, s) := by
    intro t s failed
    rw [jobCounts, occurrences_requestKeys, occurrences_requestKeys, List.filter_filter,
      List.filter_filter]
    congr 1
    refine List.filter_congr fun row _ => ?_
    by_cases here : row.2.executionStatus = s
    · simp [failedJob, here, failed]
    · simp only [ofKind, beq_false_of_ne here, Bool.and_false, Bool.false_and]
  have total : (dsrJobRequestTypes.map fun t => (failedDsrStatuses.map fun s =>
      occurrences (requestKeys ((seen .requests).requests.filter failedJob)) (t, s)).sum).sum =
      ((seen .requests).requests.filter failedJob).length := by
    refine sumNested_counts (by decide) (by decide) fun row member => ?_
    obtain ⟨is, failed⟩ := Bool.and_eq_true_iff.mp (List.mem_filter.mp member).2
    exact ⟨type_of_job is, List.contains_iff_mem.mp failed⟩
  rw [← total, DsrExecutionHealthSnapshot.totalFailedDsrJobs, countedSnapshot, sumValues, tabulate,
    List.map_map]
  congr 1
  refine List.map_congr_left fun t _ => ?_
  exact congrArg List.sum (List.map_congr_left (same t))

theorem isDegraded_countedSnapshot :
    (countedSnapshot seen checkedAt staleAfter status).isDegraded = false ↔
      Healthy seen checkedAt (checkedAt - staleAfter) := by
  have empty : ∀ {α : Type} {p : α → Bool} {rows : List α},
      ¬ 0 < (rows.filter p).length ↔ ∀ row ∈ rows, p row = false := by
    intro α p rows
    rw [Nat.pos_iff_ne_zero, not_not, List.length_eq_zero_iff, List.filter_eq_nil_iff]
    simp
  have failed : (countedSnapshot seen checkedAt staleAfter status).failedExportArtifacts =
      ((seen .failedArtifacts).artifacts.filter fun row =>
        isCurrentFailedArtifact (seen .failedArtifacts) row.2).length := rfl
  have stale : (countedSnapshot seen checkedAt staleAfter status).staleExportArtifacts =
      ((seen .staleArtifacts).artifacts.filter fun row =>
        isStaleArtifact (seen .staleArtifacts) checkedAt (checkedAt - staleAfter)
          row.2).length := rfl
  rw [DsrExecutionHealthSnapshot.isDegraded, totalFailedDsrJobs_countedSnapshot,
    totalStaleDsrJobs_countedSnapshot, failed, stale]
  simp only [Bool.or_eq_false_iff, decide_eq_false_iff_not, empty]
  constructor
  · rintro ⟨⟨⟨unfailed, unstale⟩, failed⟩, stale⟩
    refine ⟨fun row here is failed => ?_, unstale, failed, stale⟩
    have none := unfailed row here
    rw [failedJob, is, Bool.true_and, List.contains_iff_mem.mpr failed] at none
    cases none
  · rintro ⟨unfailed, unstale, failed, stale⟩
    refine ⟨⟨⟨fun row here => ?_, unstale⟩, failed⟩, stale⟩
    cases is : job row with
    | false => rw [failedJob, is, Bool.false_and]
    | true =>
        rw [failedJob, is, Bool.true_and]
        exact Bool.eq_false_iff.mpr fun failed =>
          unfailed row here is (List.contains_iff_mem.mp failed)

/-! ## The gauge -/

theorem record_of_valid {last : JobPoints} {points : List PrivacyDsrMetricPoint}
    (rated : status ∈ allowedHealthStatuses)
    (valid : ∀ p ∈ points, validateMetricPoint p = .ok ())
    (distinct : (points.map PrivacyDsrMetricPoint.key).Nodup) :
    recordPrivacyDsrHealthSnapshot status points last = points.map fun p => (p.key, p.count) := by
  have all : points.forM validateMetricPoint = .ok () := by
    clear distinct
    induction points with
    | nil => rfl
    | cons p points ih =>
        change (validateMetricPoint p >>= fun _ => points.forM validateMetricPoint) = _
        rw [valid p List.mem_cons_self]
        exact ih fun other member => valid other (List.mem_cons_of_mem _ member)
  have accepted : validateHealthStatus status = .ok () := if_pos rated
  have keys : ((points.map fun p => (p.key, p.count)).map (·.1)).Nodup := by
    rw [List.map_map]
    exact distinct
  rw [recordPrivacyDsrHealthSnapshot, accepted]
  change (match points.forM validateMetricPoint with | .error _ => last | .ok () => _) = _
  rw [all]
  exact fill_nil keys

theorem valid_request {t : DataSubjectRequestType} {signal : String} {n : Nat}
    (s : ExecutionStatus) (known : t ∈ dsrJobRequestTypes) (named : signal ∈ allowedSignals) :
    validateMetricPoint
      ⟨"dsr_request", requestTypeText t, executionStatusText s, signal, n⟩ = .ok () := by
  have allowed : requestTypeText t ∈ allowedRequestTypes := by
    cases t <;> first | decide | exact absurd known (by decide)
  have kind : "dsr_request" ∈ allowedJobKinds := by decide
  rw [validateMetricPoint, if_neg (not_not.mpr kind), if_neg (not_not.mpr allowed),
    if_neg (not_not.mpr named), if_neg (Int.not_lt.mpr (Int.natCast_nonneg n))]

theorem valid_artifact {signal : String} {n : Nat} (s : ExportArtifactStatus)
    (named : signal ∈ allowedSignals) :
    validateMetricPoint (artifactPoint signal s n) = .ok () := by
  have kind : "export_artifact" ∈ allowedJobKinds := by decide
  have allowed : requestTypeText .export ∈ allowedRequestTypes := by decide
  rw [validateMetricPoint, artifactPoint, if_neg (not_not.mpr kind),
    if_neg (not_not.mpr allowed), if_neg (not_not.mpr named),
    if_neg (Int.not_lt.mpr (Int.natCast_nonneg n))]

/-- The points that follow from the counts of the failed jobs. -/
theorem mem_failedPoints {f : DataSubjectRequestType × ExecutionStatus → Nat} :
    (p ∈ (sortedItems requestTypeText (tabulateNested dsrJobRequestTypes dsrExecutionStatuses
      f)).flatMap fun item => failedDsrStatuses.map fun status =>
        (⟨"dsr_request", requestTypeText item.1, executionStatusText status, "failed",
          getCount status item.2⟩ : PrivacyDsrMetricPoint)) ↔
      ∃ t ∈ dsrJobRequestTypes, ∃ s ∈ failedDsrStatuses,
        p = ⟨"dsr_request", requestTypeText t, executionStatusText s, "failed", f (t, s)⟩ := by
  have count : ∀ t s, getCount s (tabulate dsrExecutionStatuses fun s => f (t, s)) = f (t, s) :=
    fun t s => getCount_tabulate (fun s => f (t, s)) (by cases s <;> decide)
  rw [List.mem_flatMap]
  constructor
  · rintro ⟨item, inside, there⟩
    obtain ⟨t, known, rfl⟩ := mem_sortedItems_tabulate.mp inside
    obtain ⟨s, failed, rfl⟩ := List.mem_map.mp there
    exact ⟨t, known, s, failed, by rw [count]⟩
  · rintro ⟨t, known, s, failed, rfl⟩
    exact ⟨_, mem_sortedItems_tabulate.mpr ⟨t, known, rfl⟩,
      List.mem_map.mpr ⟨s, failed, by rw [count]⟩⟩

theorem mem_artifactPoints {signal : String} {keys : List ExportArtifactStatus}
    {f : ExportArtifactStatus → Nat} :
    (p ∈ (sortedItems artifactStatusText (tabulate keys f)).map fun item =>
        artifactPoint signal item.1 item.2) ↔ ∃ s ∈ keys, p = artifactPoint signal s (f s) := by
  rw [List.mem_map]
  constructor
  · rintro ⟨item, inside, rfl⟩
    obtain ⟨s, known, rfl⟩ := mem_sortedItems_tabulate.mp inside
    exact ⟨s, known, rfl⟩
  · rintro ⟨s, known, rfl⟩
    exact ⟨_, mem_sortedItems_tabulate.mpr ⟨s, known, rfl⟩, rfl⟩

theorem mem_staleArtifactPoints {keys : List ExportArtifactStatus}
    {f : ExportArtifactStatus → Nat} :
    (p ∈ keys.map fun s => artifactPoint "stale" s (getCount s (tabulate keys f))) ↔
      ∃ s ∈ keys, p = artifactPoint "stale" s (f s) := by
  have same : (keys.map fun s => artifactPoint "stale" s (getCount s (tabulate keys f))) =
      keys.map fun s => artifactPoint "stale" s (f s) :=
    List.map_congr_left fun s known => by rw [getCount_tabulate f known]
  rw [same, List.mem_map]
  exact exists_congr fun s => and_congr_right fun _ => eq_comm

theorem mem_toMetricPoints :
    p ∈ (countedSnapshot seen checkedAt staleAfter status).toMetricPoints ↔
      (∃ t ∈ dsrJobRequestTypes, ∃ s ∈ dsrExecutionStatuses, p = ⟨"dsr_request",
        requestTypeText t, executionStatusText s, "current", jobCounts (seen .requests) (t, s)⟩) ∨
      (∃ t ∈ dsrJobRequestTypes, ∃ s ∈ staleDsrStatuses, p = ⟨"dsr_request",
        requestTypeText t, executionStatusText s, "stale",
          staleJobCounts (seen .staleRequests) checkedAt (checkedAt - staleAfter) (t, s)⟩) ∨
      (∃ t ∈ dsrJobRequestTypes, ∃ s ∈ failedDsrStatuses, p = ⟨"dsr_request",
        requestTypeText t, executionStatusText s, "failed", jobCounts (seen .requests) (t, s)⟩) ∨
      (∃ s ∈ exportArtifactStatuses, p = artifactPoint "current" s
        (occurrences ((seen .artifacts).artifacts.map (·.2.status)) s)) ∨
      (∃ s ∈ staleExportArtifactStatuses, p = artifactPoint "stale" s
        (occurrences ((staleArtifacts (seen .staleArtifacts) checkedAt
          (checkedAt - staleAfter)).map (·.2.status)) s)) ∨
      p = artifactPoint "failed" .failed
        (countCurrentFailedExportArtifacts (seen .failedArtifacts)) := by
  simp only [DsrExecutionHealthSnapshot.toMetricPoints, countedSnapshot, List.mem_append,
    List.mem_singleton, mem_requestPoints, mem_failedPoints, mem_artifactPoints,
    mem_staleArtifactPoints, or_assoc]

theorem valid_toMetricPoints
    (member : p ∈ (countedSnapshot seen checkedAt staleAfter status).toMetricPoints) :
    validateMetricPoint p = .ok () := by
  obtain ⟨t, known, s, -, rfl⟩ | ⟨t, known, s, -, rfl⟩ | ⟨t, known, s, -, rfl⟩ | ⟨s, -, rfl⟩ |
    ⟨s, -, rfl⟩ | rfl := mem_toMetricPoints.mp member
  · exact valid_request s known (by decide)
  · exact valid_request s known (by decide)
  · exact valid_request s known (by decide)
  · exact valid_artifact s (by decide)
  · exact valid_artifact s (by decide)
  · exact valid_artifact .failed (by decide)

theorem reports_toMetricPoints
    (member : p ∈ (countedSnapshot seen checkedAt staleAfter status).toMetricPoints) :
    Reports seen checkedAt (checkedAt - staleAfter) p.key p.count := by
  obtain ⟨t, known, s, -, rfl⟩ | ⟨t, known, s, stale, rfl⟩ | ⟨t, known, s, failed, rfl⟩ |
    ⟨s, -, rfl⟩ | ⟨s, stale, rfl⟩ | rfl := mem_toMetricPoints.mp member
  · rw [jobCounts, occurrences_requestKeys]
    exact .current s known
  · rw [staleJobCounts, occurrences_requestKeys]
    exact .stale known stale
  · rw [jobCounts, occurrences_requestKeys]
    exact .failed known failed
  · rw [occurrences_statuses]
    exact .currentArtifact s
  · rw [occurrences_statuses]
    exact .staleArtifact stale
  · exact .failedArtifact

theorem toMetricPoints_of_reports {label : PrivacyDsrJobPointKey} {n : Int}
    (reports : Reports seen checkedAt (checkedAt - staleAfter) label n) :
    ∃ p ∈ (countedSnapshot seen checkedAt staleAfter status).toMetricPoints,
      (p.key, p.count) = (label, n) := by
  cases reports with
  | current s known =>
      refine ⟨_, mem_toMetricPoints.mpr (.inl ⟨_, known, s, by cases s <;> decide, rfl⟩), ?_⟩
      rw [jobCounts, occurrences_requestKeys]
      rfl
  | stale known stale =>
      refine ⟨_, mem_toMetricPoints.mpr (.inr (.inl ⟨_, known, _, stale, rfl⟩)), ?_⟩
      rw [staleJobCounts, occurrences_requestKeys]
      rfl
  | failed known failed =>
      refine ⟨_, mem_toMetricPoints.mpr (.inr (.inr (.inl ⟨_, known, _, failed, rfl⟩))), ?_⟩
      rw [jobCounts, occurrences_requestKeys]
      rfl
  | currentArtifact s =>
      refine ⟨_, mem_toMetricPoints.mpr (.inr (.inr (.inr (.inl
        ⟨s, by cases s <;> decide, rfl⟩)))), ?_⟩
      rw [occurrences_statuses]
      rfl
  | staleArtifact stale =>
      refine ⟨_, mem_toMetricPoints.mpr (.inr (.inr (.inr (.inr (.inl ⟨_, stale, rfl⟩))))), ?_⟩
      rw [occurrences_statuses]
      rfl
  | failedArtifact =>
      exact ⟨_, mem_toMetricPoints.mpr (.inr (.inr (.inr (.inr (.inr rfl))))), rfl⟩

/-- The labels in the order of their points. -/
def requestLabels (types : List DataSubjectRequestType) (statuses : List ExecutionStatus)
    (signal : String) : List PrivacyDsrJobPointKey :=
  types.flatMap fun t => statuses.map fun s => requestLabel t s signal

def sortedBy {κ : Type} (text : κ → String) (keys : List κ) : List κ :=
  keys.insertionSort fun a b => text a ≤ text b

def allLabels : List PrivacyDsrJobPointKey :=
  let types := sortedBy requestTypeText dsrJobRequestTypes
  requestLabels types (sortedBy executionStatusText dsrExecutionStatuses) "current" ++
    requestLabels types (sortedBy executionStatusText staleDsrStatuses) "stale" ++
    requestLabels types failedDsrStatuses "failed" ++
    (sortedBy artifactStatusText exportArtifactStatuses).map (artifactLabel · "current") ++
    staleExportArtifactStatuses.map (artifactLabel · "stale") ++ [artifactLabel .failed "failed"]

theorem keys_requestPoints {types : List DataSubjectRequestType} {statuses : List ExecutionStatus}
    (f : DataSubjectRequestType × ExecutionStatus → Nat) (signal : String) :
    (requestPoints signal (tabulateNested types statuses f)).map PrivacyDsrMetricPoint.key =
      requestLabels (sortedBy requestTypeText types) (sortedBy executionStatusText statuses)
        signal := by
  rw [requestPoints, tabulateNested, sortedItems_tabulate, requestLabels, List.map_flatMap,
    tabulate, List.flatMap_map]
  refine List.flatMap_congr fun t _ => ?_
  rw [sortedItems_tabulate, List.map_map]
  exact List.map_map

theorem keys_failedPoints {types : List DataSubjectRequestType} {statuses : List ExecutionStatus}
    (f : DataSubjectRequestType × ExecutionStatus → Nat) :
    ((sortedItems requestTypeText (tabulateNested types statuses f)).flatMap fun item =>
      failedDsrStatuses.map fun status => (⟨"dsr_request", requestTypeText item.1,
        executionStatusText status, "failed", getCount status item.2⟩ : PrivacyDsrMetricPoint)).map
        PrivacyDsrMetricPoint.key =
      requestLabels (sortedBy requestTypeText types) failedDsrStatuses "failed" := by
  rw [tabulateNested, sortedItems_tabulate, requestLabels, List.map_flatMap, tabulate,
    List.flatMap_map]
  rfl

theorem keys_artifactPoints {keys : List ExportArtifactStatus} (f : ExportArtifactStatus → Nat) :
    ((sortedItems artifactStatusText (tabulate keys f)).map fun item =>
      artifactPoint "current" item.1 item.2).map PrivacyDsrMetricPoint.key =
      (sortedBy artifactStatusText keys).map (artifactLabel · "current") := by
  rw [sortedItems_tabulate, tabulate, List.map_map, List.map_map]
  rfl

theorem keys_toMetricPoints :
    (countedSnapshot seen checkedAt staleAfter status).toMetricPoints.map
      PrivacyDsrMetricPoint.key =
      allLabels := by
  simp only [DsrExecutionHealthSnapshot.toMetricPoints, countedSnapshot, List.map_append,
    keys_requestPoints, keys_failedPoints, keys_artifactPoints]
  rfl

theorem nodup_allLabels : allLabels.Nodup := by decide

end Check

/-- A health check counts what its labels say: it is well exactly if no job and no artifact is
    failed or stale, and then no export has failed for the service; its totals are the numbers of
    the jobs; and it is never refused by the gauge, which then shows one number for each label,
    that of the rows it stands for. -/
theorem health_check_reports (grouping : Grouping) (seen : HealthQuery → HealthDb)
    (checkedAt : Time) (last : JobPoints) (staleAfter : Duration) (positive : 0 < staleAfter) :
    ∃ snapshot points, getPrivacyDsrExecutionHealth grouping seen checkedAt staleAfter true last =
        .ok (snapshot, points) ∧
      (snapshot.status = "ok" ↔ Healthy seen checkedAt (checkedAt - staleAfter)) ∧
      (snapshot.status = "ok" → ∀ row ∈ (seen .failedArtifacts).requests,
        row.2.requestType = .export → row.2.status ≠ .cancelled → ∀ listing a,
          GetByDsrId (seen .failedArtifacts).artifacts row.1 listing →
          latestArtifact listing = some a → a.2.status ≠ .failed) ∧
      snapshot.totalDsrJobs = ((seen .requests).requests.filter job).length ∧
      snapshot.totalFailedDsrJobs = ((seen .requests).requests.filter failedJob).length ∧
      snapshot.totalStaleDsrJobs =
        ((seen .staleRequests).requests.filter
          (staleJob (seen .staleRequests) checkedAt (checkedAt - staleAfter))).length ∧
      (points.map (·.1)).Nodup ∧ ∀ label n,
        (label, n) ∈ points ↔ Reports seen checkedAt (checkedAt - staleAfter) label n := by
  obtain ⟨status, allowed, rated⟩ := rated_countedSnapshot seen checkedAt staleAfter
  have distinct : ((countedSnapshot seen checkedAt staleAfter status).toMetricPoints.map
      PrivacyDsrMetricPoint.key).Nodup := keys_toMetricPoints ▸ nodup_allLabels
  have recorded : recordPrivacyDsrHealthSnapshot status
      (countedSnapshot seen checkedAt staleAfter status).toMetricPoints last =
      (countedSnapshot seen checkedAt staleAfter status).toMetricPoints.map fun p =>
        (p.key, p.count) :=
    record_of_valid allowed (fun _ member => valid_toMetricPoints member) distinct
  have well : (countedSnapshot seen checkedAt staleAfter "degraded").rated.status = "ok" ↔
      Healthy seen checkedAt (checkedAt - staleAfter) :=
    (status_rated _ rfl).trans isDegraded_countedSnapshot
  refine ⟨_, _, getPrivacyDsrExecutionHealth_eq positive true last, well,
    fun ok row here exports going listing a listed latest =>
      latest_not_failed (well.mp ok).unfailedArtifacts here exports going listed latest, ?_⟩
  rw [rated, if_pos rfl]
  change _ ∧ _ ∧ _ ∧ ((recordPrivacyDsrHealthSnapshot status _ last).map (·.1)).Nodup ∧ _
  refine ⟨totalDsrJobs_countedSnapshot, totalFailedDsrJobs_countedSnapshot,
    totalStaleDsrJobs_countedSnapshot, ?_, fun label n => ?_⟩
  · rw [recorded, List.map_map]
    exact distinct
  · change (label, n) ∈ recordPrivacyDsrHealthSnapshot status _ last ↔ _
    rw [recorded, List.mem_map]
    constructor
    · rintro ⟨p, member, is⟩
      cases is
      exact reports_toMetricPoints member
    · exact toMetricPoints_of_reports

/-- An export whose only artifact failed. -/
def failedExport : HealthDb where
  requests := [(1, { exampleRequest with requestType := .export, status := .approved })]
  updatedAt _ := 0
  artifacts := [(10, { exampleArtifact .failed with dataSubjectRequestId := 1 })]

theorem health_check_reports_example :
    ∃ snapshot points, getPrivacyDsrExecutionHealth .plain (fun _ => failedExport) 100 10 true [] =
        .ok (snapshot, points) ∧
      snapshot.status ≠ "ok" ∧ (artifactLabel .failed "failed", 1) ∈ points := by
  obtain ⟨snapshot, points, is, ok, -, -, -, -, -, shows⟩ :=
    health_check_reports .plain (fun _ => failedExport) 100 [] 10 (by decide)
  refine ⟨snapshot, points, is, fun well => ?_, (shows _ _).mpr ?_⟩
  · have unfailed := (ok.mp well).unfailedArtifacts _ List.mem_cons_self
    revert unfailed
    decide
  · exact .failedArtifact

end SaasTemplate.Privacy.Health
