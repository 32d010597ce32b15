import SaasTemplate.Privacy.Lifecycle

/-! # Leases and finality in every run

Both laws of artifacts hold as long as no flush lands on a row that has moved on since it was
loaded. The schedules show the two writers that read a row without its lock: the renewal of a
lease, and the expiry.
-/

set_option linter.unusedSectionVars false

namespace SaasTemplate.Privacy

open SaasTemplate.Isolation SaasTemplate.Isolation.Prog

variable {τ : Type} [DecidableEq τ] {settings : ExportSettings} {op : τ → PrivacyOp}
  {start c d : Config τ Statement Answer AppError (Db τ) (Option Renewal)}

/-! ## Leases -/

/-- The artifact that is flushed has kept its status, its token and, unless this renews it,
    its lease. -/
def KeepsLeases (t : τ) (s : Statement) (db : Db τ) : Prop := keepsLeases t s db = true

instance (t : τ) (s : Statement) (db : Db τ) : Decidable (KeepsLeases t s db) :=
  inferInstanceAs (Decidable (_ = _))

/-- A renewal that returns `True` commits a row in processing with its token and a lease end
    in the future; a lease end is there only while processing with a token; and the end of a
    generation is reported by the holder of the token. -/
def LeasesAreExclusive (op : τ → PrivacyOp) (permitted : τ → Statement → Db τ → Prop)
    (c : Config τ Statement Answer AppError (Db τ) (Option Renewal)) : Prop :=
  (∀ d, (machine τ).Step permitted c d → ∀ t id token renewal,
    op t = .artifact (.renew id token) → c.waiting t = some .commit →
    d.result t = some (.ok (some renewal)) → renewal.writes = true →
    ∃ a lease, d.db.artifacts.committed id = some a ∧ a.status = .processing ∧
      a.processingToken = some token ∧ a.processingLeaseExpiresAt = some lease ∧
      renewal.now < lease) ∧
  (∀ k a, c.db.artifacts.committed k = some a → a.processingLeaseExpiresAt ≠ none →
    a.status = .processing ∧ a.processingToken.isSome = true) ∧
  ∀ d, (machine τ).Step permitted c d → ∀ k a b, c.db.artifacts.committed k = some a →
    a.status = .processing → d.db.artifacts.committed k = some b →
    b.status = .ready ∨ b.status = .failed →
    ∃ t token, c.waiting t = some .commit ∧ (op t).reportToken = some token ∧
      a.processingToken = some token

/-- Leases are exclusive in every run in which no artifact has moved on when it is flushed. -/
theorem leases_exclusive (h : PrivacyStart settings op start)
    (run : (machine τ).Reaches KeepsLeases start c) : LeasesAreExclusive op KeepsLeases c := by
  have allowed : ∀ t s db, KeepsLeases t s db → Allowed (concernsOf op False True False) t s db :=
    fun t s db holds => ⟨False.elim, False.elim, fun _ => holds, False.elim⟩
  have reached := run.mono allowed
  have safe := h.safe reached
  refine ⟨?_, (safe.1.artifacts.leased trivial).committed, ?_⟩
  · intro d moves t id token renewal is commits ended writes
    obtain ⟨k, running⟩ := Config.run_of_waiting commits
    obtain ⟨a, here, holds, lease⟩ := (privacyTerms _).sound.ends safe (moves.mono allowed) running
      ended id token renewal is rfl writes trivial
    simp only [ExportArtifact.isProcessingWith, Bool.and_eq_true, beq_iff_eq] at holds
    refine ⟨a, _, here, holds.1, holds.2, lease, ?_⟩
    exact Int.lt_add_of_pos_right renewal.now (by decide : 0 < processingLease)
  · intro d moves k a b here processing there reported
    have reports : b.status.isReported = true := by
      rcases reported with is | is <;> rw [is] <;> rfl
    rcases h.commits reached (moves.mono allowed) with same | ⟨t, commits, is⟩
    · rw [same.artifacts, here] at there
      cases there
      simp [processing, ExportArtifactStatus.isReported] at reports
    · obtain ⟨next, seen, related⟩ := (safe.1.artifacts.reported trivial).view here t
      have viewed : c.db.artifacts.view t k = some b := by simpa [is, Db.commit] using there
      cases seen.symm.trans viewed
      rcases related with rfl | ⟨-, related⟩
      · simp [processing, ExportArtifactStatus.isReported] at reports
      · obtain ⟨some, same⟩ := related processing reports
        obtain ⟨token, is⟩ := Option.isSome_iff_exists.mp some
        exact ⟨t, token, commits, same.symm.trans is, is⟩

/-! ### Two operations on given rows -/

/-- Two operations that start at a clock value on committed rows. -/
def exampleRun (requests : List (Uuid × DataSubjectRequest))
    (artifacts : List (Uuid × ExportArtifact)) (clock : Time) (op : Bool → PrivacyOp) :
    Config Bool Statement Answer AppError (Db Bool) (Option Renewal) :=
  ⟨{ requests := .ofRows requests, artifacts := .ofRows artifacts, erased := .ofRows []
     checked := fun _ => none, clock := clock },
    fun t => some ((op t).program exampleSettings)⟩

/-- No erasure has been executed, and leases are as they should be. -/
theorem exampleRun_start {requests : List (Uuid × DataSubjectRequest)}
    {artifacts : List (Uuid × ExportArtifact)} {clock : Time} {op : Bool → PrivacyOp}
    (entitled : ∀ row ∈ requests, row.2.IsEntitled)
    (pending : ∀ row ∈ requests, row.2.requestType = .erase →
      row.2.status ≠ .fulfilled ∧ row.2.executionStatus ≠ .ready)
    (leased : ∀ row ∈ artifacts, row.2.IsLeased) :
    PrivacyStart exampleSettings op (exampleRun requests artifacts clock op) where
  requests := Table.holder_ofRows _
  artifacts := Table.holder_ofRows _
  erased := Table.holder_ofRows _
  operations _ := rfl
  entitled k r here := by
    simp only [exampleRun, Table.committed_ofRows] at here
    exact entitled (k, r) (Table.lookup_mem here)
  executed k := by
    refine ⟨fun erased => by simp [exampleRun] at erased, ?_⟩
    rintro ⟨r, here, kind, status⟩
    simp only [exampleRun, Table.committed_ofRows] at here
    exact absurd status (pending (k, r) (Table.lookup_mem here) kind).1
  finished k r here kind ready := by
    simp only [exampleRun, Table.committed_ofRows] at here
    exact absurd ready (pending (k, r) (Table.lookup_mem here) kind).2
  leased k a here := by
    simp only [exampleRun, Table.committed_ofRows] at here
    exact leased (k, a) (Table.lookup_mem here)

/-! ### A renewal against a recovery -/

/-- An artifact of request 1 with a token and a lease that ends at 5. -/
def processingExample : ExportArtifact :=
  { exampleArtifact .processing with processingToken := some "t", processingLeaseExpiresAt := some 5 }

/-- The worker that renews its lease late, and the recovery of stale leases. -/
def leaseOp : Bool → PrivacyOp
  | false => .artifact (.renew 10 "t")
  | true => .artifact (.recover 1)

def leaseStart : Config Bool Statement Answer AppError (Db Bool) (Option Renewal) :=
  exampleRun [(1, exampleRequest)] [(10, processingExample)] 9 leaseOp

theorem leaseStart_start : PrivacyStart exampleSettings leaseOp leaseStart :=
  exampleRun_start (by simp [DataSubjectRequest.IsEntitled]; decide) (by simp; decide)
    (by simp [ExportArtifact.IsLeased]; decide)

/-- What shows of the lease of artifact 10. -/
def leaseView (c : Config Bool Statement Answer AppError (Db Bool) (Option Renewal)) :
    Option (ExportArtifactStatus × Option Time) :=
  (c.db.artifacts.committed 10).map fun a => (a.status, a.processingLeaseExpiresAt)

/-- The renewal comes first: the recovery finds nothing stale. -/
theorem leases_exclusive_example :
    ∃ c, (machine Bool).Reaches KeepsLeases leaseStart c ∧
      leaseView c = some (.processing, some 3609) ∧ LeasesAreExclusive leaseOp KeepsLeases c := by
  have played : ((machine Bool).play (fun t s db => decide (KeepsLeases t s db))
      (List.replicate 4 false ++ List.replicate 3 true) leaseStart).map leaseView =
        some (some (.processing, some 3609)) := by decide
  obtain ⟨c, run, seen⟩ := Machine.run_of_play (fun _ _ _ passed => of_decide_eq_true passed) played
  exact ⟨c, run, seen, leases_exclusive leaseStart_start run⟩

/-- The recovery queues the artifact between the lookup of the renewal and its flush, which
    leaves a queued artifact with a lease. -/
theorem renewal_of_recovered_lease :
    ¬∀ (op : Bool → PrivacyOp) (start c : Config Bool Statement Answer AppError (Db Bool) (Option Renewal)),
      PrivacyStart exampleSettings op start → (machine Bool).Reaches (fun _ _ _ => True) start c →
      LeasesAreExclusive op (fun _ _ _ => True) c := by
  intro claim
  have played : ((machine Bool).play (fun _ _ _ => true)
      (List.replicate 2 false ++ List.replicate 10 true ++ List.replicate 2 false)
      leaseStart).map leaseView = some (some (.queued, some 3609)) := by decide
  obtain ⟨c, run, seen⟩ := Machine.run_of_play anything_checked played
  obtain ⟨a, here, is⟩ := Option.map_eq_some_iff.mp seen
  obtain ⟨status, lease⟩ := Prod.mk.inj is
  have processing := ((claim leaseOp leaseStart c leaseStart_start run).2.1 10 a here
    (by simp [lease])).1
  cases status.symm.trans processing

/-! ## Finality -/

/-- The artifact whose status or reason is flushed has kept both. -/
def KeepsFinality (t : τ) (s : Statement) (db : Db τ) : Prop := keepsFinality t s db = true

instance (t : τ) (s : Statement) (db : Db τ) : Decidable (KeepsFinality t s db) :=
  inferInstanceAs (Decidable (_ = _))

/-- An artifact that has failed, expired or been cancelled stays so, and one cancelled for the
    erasure of its subject keeps its status and its reason. -/
def ArtifactsAreFinal (c d : Config τ Statement Answer AppError (Db τ) (Option Renewal)) : Prop :=
  ∀ k a, c.db.artifacts.committed k = some a →
    (a.status = .failed ∨ a.status = .expired ∨ a.status = .cancelled →
      ∃ b, d.db.artifacts.committed k = some b ∧
        b.status ≠ .queued ∧ b.status ≠ .processing ∧ b.status ≠ .ready) ∧
    (a.status = .cancelled →
      a.failureReasonCode = some subjectErasureCancelledExportReason →
      ∃ b, d.db.artifacts.committed k = some b ∧ b.status = .cancelled ∧
        b.failureReasonCode = a.failureReasonCode)

/-- Artifacts are final in every run in which no status or reason is flushed over another. -/
theorem artifacts_final (h : PrivacyStart settings op start)
    (before : (machine τ).Reaches KeepsFinality start c)
    (after : (machine τ).Reaches KeepsFinality c d) : ArtifactsAreFinal c d := by
  have allowed : ∀ t s db, KeepsFinality t s db → Allowed (concernsOf op False False True) t s db :=
    fun t s db holds => ⟨False.elim, False.elim, False.elim, fun _ => holds⟩
  intro k a here
  obtain ⟨b, there, final⟩ := (h.later (before.mono allowed) (after.mono allowed)).artifacts k a here
  have final := final trivial
  refine ⟨fun ended => ⟨b, there, ?_⟩, fun cancelled reason => ⟨b, there, ?_⟩⟩
  · have stays := final.stays (by rcases ended with is | is | is <;> rw [is] <;> rfl)
    cases status : b.status <;> simp_all [ExportArtifactStatus.isFinal]
  · have erased := final.erased (by simp [ExportArtifact.isErased, cancelled, reason])
    simpa [ExportArtifact.isErased, reason] using erased

/-! ### An expiry against an erasure -/

/-- The approved erasure of subject 100. -/
def erasureExample : DataSubjectRequest :=
  { exampleRequest with requestType := .erase, executionStatus := .notStarted }

/-- Retention at 10, and the execution of the erasure by user 7. -/
def finalityOp : Bool → PrivacyOp
  | false => .artifact (.retention [] (.expire 10 5))
  | true => .request (.executeErasure ⟨2, 7, none, fun _ => "provider_failed"⟩)

def finalityStart : Config Bool Statement Answer AppError (Db Bool) (Option Renewal) :=
  exampleRun [(2, erasureExample)] [(10, exampleArtifact .ready)] 10 finalityOp

theorem finalityStart_start : PrivacyStart exampleSettings finalityOp finalityStart :=
  exampleRun_start (by simp [DataSubjectRequest.IsEntitled]; decide) (by simp; decide)
    (by simp [ExportArtifact.IsLeased]; decide)

/-- What shows of the end of artifact 10. -/
def finalityView (c : Config Bool Statement Answer AppError (Db Bool) (Option Renewal)) :
    Option (ExportArtifactStatus × Option String) :=
  (c.db.artifacts.committed 10).map fun a => (a.status, a.failureReasonCode)

/-- The erasure comes first: retention leaves the cancelled artifact alone. -/
theorem artifacts_final_example :
    ∃ c d, (machine Bool).Reaches KeepsFinality finalityStart c ∧
      (machine Bool).Reaches KeepsFinality c d ∧
      finalityView d = some (.cancelled, some subjectErasureCancelledExportReason) ∧
      ArtifactsAreFinal c d := by
  have first : ((machine Bool).play (fun t s db => decide (KeepsFinality t s db))
      (List.replicate 22 true) finalityStart).map finalityView =
        some (some (.cancelled, some subjectErasureCancelledExportReason)) := by decide
  have whole : ((machine Bool).play (fun t s db => decide (KeepsFinality t s db))
      (List.replicate 22 true ++ List.replicate 3 false) finalityStart).map finalityView =
        some (some (.cancelled, some subjectErasureCancelledExportReason)) := by decide
  obtain ⟨c, d, before, after, -, seen⟩ :=
    Machine.runs_of_play (fun _ _ _ passed => of_decide_eq_true passed) first whole
  exact ⟨c, d, before, after, seen, artifacts_final finalityStart_start before after⟩

/-- Retention lists the artifact before the erasure cancels it, and expires it afterwards. -/
theorem expiry_of_cancelled_artifact :
    ¬∀ (op : Bool → PrivacyOp)
      (start c d : Config Bool Statement Answer AppError (Db Bool) (Option Renewal)),
      PrivacyStart exampleSettings op start → (machine Bool).Reaches (fun _ _ _ => True) start c →
      (machine Bool).Reaches (fun _ _ _ => True) c d → ArtifactsAreFinal c d := by
  intro claim
  have first : ((machine Bool).play (fun _ _ _ => true)
      ([false] ++ List.replicate 22 true) finalityStart).map finalityView =
        some (some (.cancelled, some subjectErasureCancelledExportReason)) := by decide
  have whole : ((machine Bool).play (fun _ _ _ => true)
      (([false] ++ List.replicate 22 true) ++ List.replicate 10 false) finalityStart).map
        finalityView = some (some (.expired, some subjectErasureCancelledExportReason)) := by decide
  obtain ⟨c, d, before, after, cancelled, expired⟩ :=
    Machine.runs_of_play anything_checked first whole
  obtain ⟨a, here, was⟩ := Option.map_eq_some_iff.mp cancelled
  obtain ⟨b, there, is⟩ := Option.map_eq_some_iff.mp expired
  obtain ⟨status, reason⟩ := Prod.mk.inj was
  obtain ⟨next, same, stays, -⟩ :=
    (claim finalityOp finalityStart c d finalityStart_start before after 10 a here).2 status reason
  cases there.symm.trans same
  cases (Prod.mk.inj is).1.symm.trans stays

end SaasTemplate.Privacy
