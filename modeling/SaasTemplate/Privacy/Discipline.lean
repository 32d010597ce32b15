import SaasTemplate.Privacy.Contract

/-! # Every statement keeps the laws of privacy

Table by table: what a write, a commit, a rollback and a savepoint leave of each law. The
discipline at the end is what all clients keep.
-/

set_option linter.unusedSectionVars false

namespace SaasTemplate.Privacy

open SaasTemplate.Isolation

open SaasTemplate.Outbox (written written_same written_of_ne written_self)

variable {τ : Type} [DecidableEq τ] {t u : τ} {s : Statement} {db db' : Db τ} {C : Concerns τ}

/-! ## Requests -/

section Requests

variable {R : Table Uuid τ DataSubjectRequest} {id : Uuid} {row next : DataSubjectRequest}

/-- A write that follows what its transaction sees follows the committed row, if the
    transaction has changed no status or changes none now. -/
theorem RequestRows.put (h : RequestRows R) (seen : R.view t id = some row)
    (entitled : next.IsEntitled) (step : RequestStep row next)
    (clean : next.status = row.status ∨ ∀ r, R.committed id = some r → r.status = row.status) :
    RequestRows (R.put t id (some next)) := by
  refine ⟨h.entitled.put entitled, h.steps.put fun r here => ?_⟩
  obtain ⟨viewed, again, related⟩ := h.steps.view here t
  cases seen.symm.trans again
  rcases related with rfl | ⟨-, related⟩
  · exact step
  · refine ⟨step.type.trans related.type, ?_⟩
    rcases clean with same | same
    · rw [same]
      exact related.status
    · rw [same r here]
      exact step.status

theorem RequestRows.insert (h : RequestRows R) (fresh : R.view t id = none)
    (entitled : row.IsEntitled) : RequestRows (R.put t id (some row)) := by
  refine ⟨h.entitled.put entitled, h.steps.put fun r here => ?_⟩
  obtain ⟨viewed, again, -⟩ := h.steps.view here t
  cases fresh.symm.trans again

theorem RequestRows.commit (h : RequestRows R) (t : τ) : RequestRows (R.commit t) :=
  ⟨h.entitled.commit t, h.steps.commit t⟩

theorem RequestRows.rollback (h : RequestRows R) (t : τ) : RequestRows (R.rollback t) :=
  ⟨h.entitled.rollback t, h.steps.rollback t⟩

theorem SavedOk.step {r before : DataSubjectRequest} (h : SavedOk r before) :
    RequestStep before r :=
  ⟨h.type, .inl (h.status.1.trans h.status.2.symm)⟩

theorem RequestRows.restore (h : RequestRows R) {saved : List (Uuid × Option DataSubjectRequest)}
    (kept : ∀ k v, R.holder k = some t → saved.lookup k = some v →
      ∃ r before, v = some r ∧ R.committed k = some before ∧ SavedOk r before) :
    RequestRows (R.restore t saved) := by
  refine ⟨h.entitled.restore fun k r held found => ?_, h.steps.restore fun k v r held found here => ?_⟩
  · obtain ⟨s, before, is, -, ok⟩ := kept k (some r) held found
    cases is
    exact ok.entitled
  · obtain ⟨s, before, is, there, ok⟩ := kept k v held found
    cases there.symm.trans here
    exact ⟨s, is, ok.step⟩

/-- The committed rows only move along the law. -/
theorem RequestRows.commit_evolves (h : RequestRows R) (t : τ) :
    R.Evolves requestLaw (R.commit t) := by
  intro k r here
  obtain ⟨next, seen, related⟩ := h.steps.view here t
  refine ⟨next, by simpa using seen, ?_⟩
  rcases related with rfl | ⟨-, related⟩
  · exact ⟨rfl, fun _ => rfl⟩
  · exact related.path

end Requests

/-! ## Erasures -/

section Erasures

variable {R : Table Uuid τ DataSubjectRequest} {E : Table Uuid τ Unit} {id : Uuid}
  {row : DataSubjectRequest}

theorem ErasedRows.not_held (h : ErasedRows R E) {k : Uuid} (held : R.holder k = some u)
    (other : u ≠ t) : E.holder k ≠ some t := by
  intro works
  have mine := (h.working k t works).2.1
  exact other (Option.some.inj (held.symm.trans mine))

/-- Where `t` sees an erasure as executed, it sees the providers' work. -/
theorem ErasedRows.view (h : ErasedRows R E) (seen : R.view t id = some row)
    (kind : row.requestType = .erase) (done : row.executionStatus = .ready ∨ row.status = .fulfilled) :
    E.view t id = some () := by
  by_cases held : R.holder id = some t
  · rw [Table.view_of_held held] at seen
    exact h.executes id t row held seen kind done
  · rw [Table.view_of_not_held held] at seen
    rw [Table.view_of_not_held fun mine => held (h.working id t mine).2.1]
    exact h.executed id row seen kind done

/-- A write of a request keeps what is said of erasures, if it does not call an erasure
    executed before the providers ran and does not leave one that is under way. -/
theorem ErasedRows.putRequest (h : ErasedRows R E) (free : R.free t id = true)
    (executes : row.requestType = .erase → row.executionStatus = .ready ∨ row.status = .fulfilled →
      E.view t id = some ())
    (working : E.holder id = some t → row.requestType = .erase ∧
      (row.status = .approved ∨ row.status = .fulfilled)) :
    ErasedRows (R.put t id (some row)) E where
  done k here := by simpa using h.done k here
  executed k r here := h.executed k r (by simpa using here)
  executes k u r held here := by
    by_cases same : k = id
    · subst same
      simp only [Table.holder_put_same, Table.pending_put_same, Option.some.injEq] at held here
      subst held here
      exact executes
    · rw [Table.holder_put_other same] at held
      rw [Table.pending_put_other same] at here
      exact h.executes k u r held here
  working k u held := by
    obtain ⟨pending, mine, r, here, kind⟩ := h.working k u held
    by_cases same : k = id
    · subst same
      have own : u = t := by
        rcases Table.holder_of_free free with none | own
        · simp [none] at mine
        · exact Option.some.inj (mine.symm.trans own)
      subst own
      exact ⟨pending, by simp, row, by simp, working held⟩
    · refine ⟨pending, by rwa [Table.holder_put_other same], r, ?_, kind⟩
      rwa [Table.pending_put_other same]

theorem ErasedRows.putErased (h : ErasedRows R E) (held : R.holder id = some t)
    (here : R.pending id = some row) (kind : row.requestType = .erase)
    (status : row.status = .approved) : ErasedRows R (E.put t id (some ())) where
  done k there := h.done k (by simpa using there)
  executed k r there := by simpa using h.executed k r there
  executes k u r mine there := by
    by_cases same : k = id
    · subst same
      cases mine.symm.trans held
      intros
      simp
    · rw [Table.view_put_other same]
      exact h.executes k u r mine there
  working k u mine := by
    by_cases same : k = id
    · subst same
      simp only [Table.holder_put_same, Option.some.injEq] at mine
      subst mine
      exact ⟨by simp, held, row, here, kind, .inl status⟩
    · rw [Table.holder_put_other same] at mine
      rw [Table.pending_put_other same]
      exact h.working k u mine

theorem ErasedRows.commit (h : ErasedRows R E) (rows : RequestRows R)
    (ready : ∀ k, E.holder k = some t → ∃ r, R.pending k = some r ∧ r.status = .fulfilled) :
    ErasedRows (R.commit t) (E.commit t) where
  done k here := by
    rw [Table.committed_commit] at here
    rw [Table.committed_commit]
    by_cases held : E.holder k = some t
    · obtain ⟨-, mine, r, there, kind, -⟩ := h.working k t held
      obtain ⟨r', again, status⟩ := ready k held
      cases there.symm.trans again
      exact ⟨r, by rwa [Table.view_of_held mine], kind, status⟩
    · rw [Table.view_of_not_held held] at here
      obtain ⟨r, there, kind, status⟩ := h.done k here
      obtain ⟨next, seen, related⟩ := rows.steps.view there t
      refine ⟨next, seen, ?_⟩
      rcases related with rfl | ⟨-, related⟩
      · exact ⟨kind, status⟩
      · exact ⟨related.type.trans kind,
          (related.path.final (by rw [status]; rfl)).trans status⟩
  executed k r here kind done := by
    rw [Table.committed_commit] at here
    rw [Table.committed_commit]
    by_cases held : R.holder k = some t
    · exact h.executes k t r held (by rwa [Table.view_of_held held] at here) kind done
    · have erased := h.executed k r (by rwa [Table.view_of_not_held held] at here) kind done
      rwa [Table.view_of_not_held fun mine => held (h.working k t mine).2.1]
  executes k u r held here := by
    have same := Table.cell_commit_other held
    obtain ⟨before, other⟩ := Table.holder_commit_eq_some held
    have differs : u ≠ t := fun is => other (is ▸ before)
    rw [Table.pending_of_cell same] at here
    have unheld := Table.cell_commit_of_not_held (h.not_held before differs)
    rw [Table.view, unheld]
    exact h.executes k u r before here
  working k u held := by
    have same := Table.cell_commit_other held
    obtain ⟨pending, mine, r, here, kind⟩ := h.working k u (Table.holder_commit_eq_some held).1
    have differs : u ≠ t := fun is =>
      (Table.holder_commit_eq_some held).2 (is ▸ (Table.holder_commit_eq_some held).1)
    have other : R.holder k ≠ some t := fun is => differs (Option.some.inj (mine.symm.trans is))
    have unheld := Table.cell_commit_of_not_held other
    rw [Table.pending_of_cell same, Table.holder_of_cell unheld, Table.pending_of_cell unheld]
    exact ⟨pending, mine, r, here, kind⟩

/-- Going back keeps what is said of erasures: the providers' work of `t` goes, and what `t`
    still holds of requests is not executed. -/
theorem ErasedRows.back (h : ErasedRows R E) {R' : Table Uuid τ DataSubjectRequest}
    (committed : ∀ k, R'.committed k = R.committed k)
    (others : ∀ k u, u ≠ t → R.holder k = some u → R'.cell k = R.cell k)
    (held : ∀ k u, R'.holder k = some u → R.holder k = some u)
    (own : ∀ k r, R'.holder k = some t → R'.pending k = some r →
      r.executionStatus ≠ .ready ∧ r.status ≠ .fulfilled) :
    ErasedRows R' (E.rollback t) where
  done k here := by
    rw [committed]
    exact h.done k (by simpa using here)
  executed k r here := by
    rw [committed] at here
    simpa using h.executed k r here
  executes k u r mine here kind done := by
    by_cases same : u = t
    · subst same
      obtain ⟨notReady, notFulfilled⟩ := own k r mine here
      exact absurd done (by simp [notReady, notFulfilled])
    · have before := held k u mine
      rw [Table.pending_of_cell (others k u same before)] at here
      rw [Table.view, Table.cell_rollback_of_not_held (h.not_held before same)]
      exact h.executes k u r before here kind done
  working k u mine := by
    obtain ⟨before, other⟩ := Table.holder_rollback_eq_some mine
    obtain ⟨pending, holds, r, here, kind⟩ := h.working k u before
    have same := others k u (fun is => other (is ▸ before)) holds
    rw [Table.pending_of_cell (Table.cell_rollback_other mine), Table.holder_of_cell same,
      Table.pending_of_cell same]
    exact ⟨pending, holds, r, here, kind⟩

theorem ErasedRows.rollback (h : ErasedRows R E) (t : τ) :
    ErasedRows (R.rollback t) (E.rollback t) := by
  refine h.back (fun k => by simp) (fun k u other mine => ?_)
    (fun k u mine => (Table.holder_rollback_eq_some mine).1) (fun k r mine _ => ?_)
  · exact Table.cell_rollback_of_not_held fun is => other (Option.some.inj (mine.symm.trans is))
  · obtain ⟨before, other⟩ := Table.holder_rollback_eq_some mine
    exact absurd before other

theorem ErasedRows.restore (h : ErasedRows R E) {saved : List (Uuid × Option DataSubjectRequest)}
    (kept : ∀ k v, R.holder k = some t → saved.lookup k = some v →
      ∃ r before, v = some r ∧ R.committed k = some before ∧ SavedOk r before) :
    ErasedRows (R.restore t saved) (E.rollback t) := by
  have held : ∀ k u, (R.restore t saved).holder k = some u → R.holder k = some u := by
    intro k u mine
    by_cases own : u = t
    · subst own
      by_contra before
      rw [Table.holder_of_cell (Table.cell_restore_of_not_held before)] at mine
      exact before mine
    · rwa [Table.holder_of_cell (Table.cell_restore_other mine own)] at mine
  refine h.back (fun k => by simp) (fun k u other mine => ?_) held (fun k r mine here => ?_)
  · exact Table.cell_restore_of_not_held fun is => other (Option.some.inj (mine.symm.trans is))
  · obtain ⟨before, found⟩ := Table.pending_restore mine here
    obtain ⟨r', there, is, committed, ok⟩ := kept k (some r) before found
    cases is
    exact ⟨ok.running, by simp [ok.status.1]⟩

end Erasures

/-! ## Artifacts -/

section Artifacts

variable {A : Table Uuid τ ExportArtifact} {id : Uuid} {row next loaded assigned : ExportArtifact}
  {writer : Writer}

/-- A write keeps the laws of artifacts if it keeps the lease of the version it replaces and
    does not end the processing, or ends it with the token. -/
theorem ArtifactRows.put (h : ArtifactRows C A) (seen : A.view t id = some row)
    (leased : C.leases → row.IsLeased → next.IsLeased)
    (reported : C.leases → next.status.isReported = true → next.status = row.status ∨
      ∀ a, A.committed id = some a → Reported (C.token t) a next)
    (final : C.finality → Final row next) : ArtifactRows C (A.put t id (some next)) where
  leased about := (h.leased about).put (leased about ((h.leased about).view seen))
  reported about := by
    refine (h.reported about).put fun a here processing reports => ?_
    rcases reported about reports with same | with_token
    · obtain ⟨viewed, again, related⟩ := (h.reported about).view here t
      cases seen.symm.trans again
      rcases related with rfl | ⟨-, related⟩
      · simp [same, processing, ExportArtifactStatus.isReported] at reports
      · exact related processing (same ▸ reports)
    · exact with_token a here processing reports
  final := by
    refine h.final.put fun a here about => ?_
    obtain ⟨viewed, again, related⟩ := h.final.view here t
    cases seen.symm.trans again
    rcases related with rfl | ⟨-, related⟩
    · exact final about
    · exact (related about).trans (final about)

theorem ArtifactRows.insert (h : ArtifactRows C A) (fresh : A.view t id = none)
    (unleased : next.processingLeaseExpiresAt = none) : ArtifactRows C (A.put t id (some next)) := by
  have absent : ∀ a, A.committed id ≠ some a := by
    intro a here
    obtain ⟨viewed, again, -⟩ := h.final.view here t
    cases fresh.symm.trans again
  exact ⟨fun about => (h.leased about).put fun some => absurd unleased some,
    fun about => (h.reported about).put fun a here => absurd here (absent a),
    h.final.put fun a here => absurd here (absent a)⟩

theorem SameStage.leased (h : SameStage row next) (leased : row.IsLeased) : next.IsLeased := by
  intro some
  rw [h.status, h.token]
  exact leased (by rwa [h.lease] at some)

theorem Final.of_same {a b : ExportArtifact} (status : b.status = a.status)
    (reason : b.failureReasonCode = a.failureReasonCode) : Final a b :=
  ⟨by simp [status], by simp [ExportArtifact.isErased, status, reason]⟩

theorem ArtifactRows.touch (h : ArtifactRows C A) (seen : A.view t id = some row)
    (stage : SameStage row next) : ArtifactRows C (A.put t id (some next)) :=
  h.put seen (fun _ => stage.leased) (fun _ _ => .inl stage.status)
    fun _ => .of_same stage.status stage.reason

theorem leased_flush (change : ArtifactChange writer loaded assigned) (h : row.IsLeased)
    (status : row.status = loaded.status) (token : row.processingToken = loaded.processingToken)
    (lease : writer = .renewProcessingLease ∨
      row.processingLeaseExpiresAt = loaded.processingLeaseExpiresAt) :
    (loaded.flush assigned row).IsLeased := by
  have newStatus : (loaded.flush assigned row).status = assigned.status := by
    simp [ExportArtifact.flush, status]
  have newToken : (loaded.flush assigned row).processingToken = assigned.processingToken := by
    simp [ExportArtifact.flush, token]
  rcases lease with renews | lease
  · obtain ⟨sameStatus, sameToken, processing, some⟩ := change.renews renews
    intro _
    rw [newStatus, newToken, sameStatus, sameToken]
    exact ⟨processing, some⟩
  · have newLease : (loaded.flush assigned row).processingLeaseExpiresAt =
        assigned.processingLeaseExpiresAt := by
      simp [ExportArtifact.flush, lease]
    have before : loaded.IsLeased := by
      intro some
      rw [← status, ← token]
      exact h (by rwa [lease])
    intro some
    rw [newStatus, newToken]
    exact change.leased before (newLease ▸ some)

theorem final_flush (h : Final loaded assigned)
    (kept : (assigned.status = loaded.status ∧
        assigned.failureReasonCode = loaded.failureReasonCode) ∨
      (row.status = loaded.status ∧ row.failureReasonCode = loaded.failureReasonCode)) :
    Final row (loaded.flush assigned row) := by
  rcases kept with ⟨status, reason⟩ | ⟨status, reason⟩
  · exact .of_same (by simp [ExportArtifact.flush, status])
      (by simp [ExportArtifact.flush, reason])
  · have newStatus : (loaded.flush assigned row).status = assigned.status := by
      simp [ExportArtifact.flush, status]
    have newReason : (loaded.flush assigned row).failureReasonCode = assigned.failureReasonCode := by
      simp [ExportArtifact.flush, reason]
    have here : Final row loaded := .of_same status.symm reason.symm
    exact (here.trans h).trans (.of_same newStatus newReason)

theorem ArtifactRows.flush (h : ArtifactRows C db.artifacts)
    (allowed : Allowed C t (.flushArtifact writer id loaded assigned) db)
    (ok : FlushArtifactOk C t writer id loaded assigned db)
    (seen : db.artifacts.view t id = some row) :
    ArtifactRows C (db.artifacts.put t id (some (loaded.flush assigned row))) := by
  have kept : C.leases → row.status = loaded.status ∧
      row.processingToken = loaded.processingToken ∧ (writer = .renewProcessingLease ∨
        row.processingLeaseExpiresAt = loaded.processingLeaseExpiresAt) := by
    intro about
    simpa [keepsLeases, seen, and_assoc] using allowed.leases about
  refine h.put seen (fun about leased => ?_) (fun about reports => ?_) (fun about => ?_)
  · obtain ⟨status, token, lease⟩ := kept about
    exact leased_flush ok.change leased status token lease
  · obtain ⟨status, -, -⟩ := kept about
    have newStatus : (loaded.flush assigned row).status = assigned.status := by
      simp [ExportArtifact.flush, status]
    by_cases same : assigned.status = loaded.status
    · exact .inl (by rw [newStatus, same, status])
    · refine .inr fun a here processing _ => ?_
      exact ok.reported about (newStatus ▸ reports) same a here processing (newStatus ▸ reports)
  · exact final_flush ok.change.final
      (by simpa [keepsFinality, seen] using allowed.finality about)

theorem ArtifactRows.commit (h : ArtifactRows C A) (t : τ) : ArtifactRows C (A.commit t) :=
  ⟨fun about => (h.leased about).commit t, fun about => (h.reported about).commit t, h.final.commit t⟩

theorem ArtifactRows.rollback (h : ArtifactRows C A) (t : τ) : ArtifactRows C (A.rollback t) :=
  ⟨fun about => (h.leased about).rollback t, fun about => (h.reported about).rollback t,
    h.final.rollback t⟩

theorem ArtifactRows.commit_evolves (h : ArtifactRows C A) (t : τ) :
    A.Evolves (artifactLaw C) (A.commit t) := by
  intro k a here
  obtain ⟨next, seen, related⟩ := h.final.view here t
  refine ⟨next, by simpa using seen, fun about => ?_⟩
  rcases related with rfl | ⟨-, related⟩
  · exact .refl _
  · exact related about

end Artifacts

/-! ## Fulfilled exports -/

section Truth

variable {id k request : Uuid} {now : Time}

/-- A write of an artifact that keeps what makes it usable. -/
theorem HasUsable.putArtifact {row next : ExportArtifact} (h : HasUsable db u request)
    (seen : db.artifacts.view t id = some row)
    (meets : ∀ now, isUsableFor request now row = true → isUsableFor request now next = true) :
    HasUsable { db with artifacts := db.artifacts.put t id (some next) } u request := by
  obtain ⟨now, checked, k, settled⟩ := h
  refine ⟨now, checked, k, ?_⟩
  by_cases same : k = id
  · subst same
    have viewed := Table.view_of_settled settled t
    rw [seen, Option.any_some] at viewed
    exact Table.settled_put_same settled (meets now viewed)
  · rwa [Table.settled_put_other same]

theorem HasUsable.insertArtifact {next : ExportArtifact} (h : HasUsable db u request)
    (fresh : db.artifacts.view t id = none) :
    HasUsable { db with artifacts := db.artifacts.put t id (some next) } u request := by
  obtain ⟨now, checked, k, settled⟩ := h
  refine ⟨now, checked, k, ?_⟩
  have other : k ≠ id := by
    rintro rfl
    simpa [fresh] using Table.view_of_settled settled t
  rwa [Table.settled_put_other other]

theorem usable_iff {a : ExportArtifact} : isUsableFor request now a = true ↔
    a.dataSubjectRequestId = request ∧ a.status = .ready ∧ now < a.expiresAt := by
  simp [isUsableFor, isReadyExportArtifactUsable]

theorem SameStage.usable {row next : ExportArtifact} (h : SameStage row next)
    (usable : isUsableFor request now row = true) : isUsableFor request now next = true := by
  rw [usable_iff] at usable ⊢
  rwa [h.request, h.status, h.expires]

/-- A request is not about to become fulfilled by a write that changes no status. -/
theorem Truthful.putRequest {next : DataSubjectRequest} (h : Truthful db)
    (covered : next.requestType = .export → next.status = .fulfilled →
      HasUsable db t id ∨ ∃ row, db.requests.view t id = some row ∧
        row.requestType = .export ∧ row.status = .fulfilled) :
    Truthful { db with requests := db.requests.put t id (some next) } := by
  intro k u r held here type status open_
  by_cases same : k = id
  · subst same
    simp only [Table.holder_put_same, Table.pending_put_same, Option.some.injEq] at held here
    subst held here
    rcases covered type status with usable | ⟨row, seen, wasExport, wasFulfilled⟩
    · exact usable
    · by_cases held : db.requests.holder k = some t
      · rw [Table.view_of_held held] at seen
        exact h k t row held seen wasExport wasFulfilled fun before there =>
          open_ before (by simpa using there)
      · rw [Table.view_of_not_held held] at seen
        exact absurd wasFulfilled (open_ row (by simpa using seen))
  · simp only [Table.holder_put_other same] at held
    simp only [Table.pending_put_other same] at here
    exact h k u r held here type status fun before there => open_ before (by simpa using there)

/-- A write of an artifact that is spared where its request becomes fulfilled. -/
theorem Truthful.putArtifact {row next : ExportArtifact} (h : Truthful db)
    (seen : db.artifacts.view t id = some row)
    (meets : ∀ now, isUsableFor row.dataSubjectRequestId now row = true →
      isFulfilling db row.dataSubjectRequestId = true →
      isUsableFor row.dataSubjectRequestId now next = true) :
    Truthful { db with artifacts := db.artifacts.put t id (some next) } := by
  intro k u r held here type status open_
  refine (h k u r held here type status open_).putArtifact seen fun now usable => ?_
  obtain rfl := (usable_iff.mp usable).1
  refine meets now usable ?_
  have none : (db.requests.committed row.dataSubjectRequestId).any (·.status == .fulfilled) = false := by
    cases there : db.requests.committed row.dataSubjectRequestId with
    | none => rfl
    | some before => simpa using open_ before there
  simp [isFulfilling, here, status, none]

theorem Truthful.insertArtifact {next : ExportArtifact} (h : Truthful db)
    (fresh : db.artifacts.view t id = none) :
    Truthful { db with artifacts := db.artifacts.put t id (some next) } :=
  fun k u r held here type status open_ =>
    (h k u r held here type status open_).insertArtifact fresh

theorem Truthful.noteCheck (h : Truthful db) (clean : Clean t db) (check : Option (Uuid × Time)) :
    Truthful { db with checked := Function.update db.checked t check } := by
  intro k u r held here type status open_
  have other : u ≠ t := by
    rintro rfl
    obtain ⟨before, there, same⟩ := clean k r held here
    exact open_ before there (same.trans status)
  obtain ⟨now, checked, usable⟩ := h k u r held here type status open_
  exact ⟨now, by simpa [Function.update_of_ne other] using checked, usable⟩

/-- The end of another transaction leaves an artifact that is about to stay usable. -/
theorem Truthful.ends {next : Db τ} (h : Truthful db) (checked : next.checked = db.checked)
    (artifacts : ∀ k p, db.artifacts.settled p k = true → next.artifacts.settled p k = true)
    (requests : ∀ k u r, next.requests.holder k = some u → next.requests.pending k = some r →
      r.status = .fulfilled → next.requests.cell k = db.requests.cell k) : Truthful next := by
  intro k u r held here type status open_
  have same := requests k u r held here status
  rw [Table.holder_of_cell same] at held
  rw [Table.pending_of_cell same] at here
  rw [Table.committed_of_cell same] at open_
  obtain ⟨now, known, a, settled⟩ := h k u r held here type status open_
  exact ⟨now, by rw [checked, known], a, artifacts a _ settled⟩

end Truth

/-! ## The discipline -/

structure Inv (C : Concerns τ) (db : Db τ) : Prop where
  requests : RequestRows db.requests
  erased : ErasedRows db.requests db.erased
  truth : C.checks → Truthful db
  artifacts : ArtifactRows C db.artifacts

/-- What a step of `t` does to the tables. -/
structure Moves (C : Concerns τ) (t : τ) (db db' : Db τ) : Prop where
  requests : db.requests.Moves requestLaw t db'.requests
  artifacts : db.artifacts.Moves (artifactLaw C) t db'.artifacts
  erased : db.erased.Moves erasedLaw t db'.erased

/-- What `t` counts on. -/
structure Stays (C : Concerns τ) (t : τ) (db db' : Db τ) : Prop where
  requests : db.requests.Stays requestLaw t db'.requests
  artifacts : db.artifacts.Stays (artifactLaw C) t db'.artifacts
  erased : db.erased.Stays erasedLaw t db'.erased

/-- Nothing has been committed. -/
structure Unchanged (db db' : Db τ) : Prop where
  requests : ∀ k, db'.requests.committed k = db.requests.committed k
  artifacts : ∀ k, db'.artifacts.committed k = db.artifacts.committed k
  erased : ∀ k, db'.erased.committed k = db.erased.committed k

theorem Moves.refl (C : Concerns τ) (t : τ) (db : Db τ) : Moves C t db db :=
  ⟨.refl _ t _, .refl _ t _, .refl _ t _⟩

theorem Moves.putRequest {id : Uuid} {row : DataSubjectRequest}
    (free : db.requests.free t id = true) :
    Moves C t db { db with requests := db.requests.put t id (some row) } :=
  ⟨⟨Table.respects_put free, fun k => by simpa using requestLaw.refl k _⟩, .refl _ t _, .refl _ t _⟩

theorem Moves.putArtifact {id : Uuid} {row : ExportArtifact}
    (free : db.artifacts.free t id = true) :
    Moves C t db { db with artifacts := db.artifacts.put t id (some row) } :=
  ⟨.refl _ t _, ⟨Table.respects_put free, fun k => by simpa using (artifactLaw C).refl k _⟩,
    .refl _ t _⟩

theorem Moves.putErased {id : Uuid} (free : db.erased.free t id = true) :
    Moves C t db { db with erased := db.erased.put t id (some ()) } :=
  ⟨.refl _ t _, .refl _ t _, ⟨Table.respects_put free, fun k => by simpa using erasedLaw.refl k _⟩⟩

theorem Stays.refl (C : Concerns τ) (t : τ) (db : Db τ) : Stays C t db db :=
  ⟨.refl _ t _, .refl _ t _, .refl _ t _⟩

theorem Stays.trans {a b c : Db τ} (first : Stays C t a b) (second : Stays C t b c) :
    Stays C t a c :=
  ⟨first.requests.trans second.requests, first.artifacts.trans second.artifacts,
    first.erased.trans second.erased⟩

theorem Moves.stays (h : Moves C t db db') (other : u ≠ t) : Stays C u db db' :=
  ⟨h.requests.stays other, h.artifacts.stays other, h.erased.stays other⟩

theorem Unchanged.refl (db : Db τ) : Unchanged db db := ⟨fun _ => rfl, fun _ => rfl, fun _ => rfl⟩

/-- What a transition writes. -/
theorem Inv.transition (h : Inv C db) {id : Uuid} {expected : DataSubjectRequestStatus}
    {values : DataSubjectRequest.Transition} {row : DataSubjectRequest}
    (allowed : Allowed C t (.transitionStatusIfCurrent id expected values) db)
    (needs : Needs C t (.transitionStatusIfCurrent id expected values) db)
    (seen : db.requests.view t id = some row) (current : row.status = expected)
    (verified : values.nextStatus = .approved → row.representativeStatus.allowsApproval = true)
    (free : db.requests.free t id = true) :
    Inv C { db with requests := db.requests.put t id (some (values.apply row)) } := by
  obtain ⟨listed, ok⟩ := needs
  have ok := ok row seen current
  subst current
  have fulfilled : values.nextStatus = .fulfilled → row.status = .approved := by
    intro is
    rw [is] at listed
    cases status : row.status <;> simp [status, DataSubjectRequestStatus.allowedTransitions] at listed ⊢
  have entitled : (values.apply row).IsEntitled := by
    rintro (approves | fulfils)
    · exact ⟨ok.approvable approves, verified approves⟩
    · have before := h.requests.entitled.view seen
      exact before (.inl (fulfilled fulfils))
  refine ⟨h.requests.put seen entitled ⟨rfl, .inr listed⟩ (.inr ok.clean),
    h.erased.putRequest free ?_ ?_, fun about => (h.truth about).putRequest ?_, h.artifacts⟩
  · rintro kind (ready | fulfils)
    · exact h.erased.view seen kind (.inl ready)
    · exact ok.executed fulfils kind
  · intro mine
    obtain ⟨-, held, r, here, kind, -⟩ := h.erased.working id t mine
    rw [Table.view_of_held held] at seen
    cases seen.symm.trans here
    exact ⟨kind, .inr (ok.fulfils mine)⟩
  · intro export_ fulfils
    have covered := allowed.fulfils about
    have exports : row.requestType = .export := export_
    have fulfils : values.nextStatus = .fulfilled := fulfils
    simp only [fulfilsTruly, fulfils, bne_self_eq_false, seen, Option.all_some, exports,
      Bool.or_self, Bool.false_or, Option.any_eq_true, Bool.and_eq_true, beq_iff_eq,
      List.any_eq_true] at covered
    obtain ⟨⟨_, now⟩, checked, rfl, k, -, settled⟩ := covered
    exact .inl ⟨now, checked, k, settled⟩

/-- What a flush of a request writes. -/
theorem Inv.flushRequest (h : Inv C db) {id : Uuid} {loaded assigned row : DataSubjectRequest}
    (needs : FlushRequestOk t id loaded assigned db) (seen : db.requests.view t id = some row)
    (free : db.requests.free t id = true) :
    Inv C { db with requests := db.requests.put t id (some (loaded.flush assigned row)) } := by
  have type : (loaded.flush assigned row).requestType = row.requestType := by
    simp [DataSubjectRequest.flush, needs.type]
  have status : (loaded.flush assigned row).status = row.status := by
    simp [DataSubjectRequest.flush, needs.status]
  have representative : (loaded.flush assigned row).representativeStatus =
      row.representativeStatus := by
    simp [DataSubjectRequest.flush, needs.representative]
  have entitled : (loaded.flush assigned row).IsEntitled := by
    intro kind
    rw [type, representative]
    exact h.requests.entitled.view seen (by rwa [status] at kind)
  refine ⟨h.requests.put seen entitled ⟨type, .inl status⟩ (.inl status),
    h.erased.putRequest free ?_ ?_, fun about => (h.truth about).putRequest ?_, h.artifacts⟩
  · rw [type, status]
    rintro kind (ready | fulfilled)
    · by_cases same : assigned.executionStatus = loaded.executionStatus
      · exact h.erased.view seen kind (.inl (by simpa [DataSubjectRequest.flush, same] using ready))
      · refine needs.ready ?_ same row seen kind
        simpa [DataSubjectRequest.flush, written_of_ne same] using ready
    · exact h.erased.view seen kind (.inr fulfilled)
  · intro mine
    obtain ⟨-, held, r, here, kind⟩ := h.erased.working id t mine
    rw [Table.view_of_held held] at seen
    cases seen.symm.trans here
    rwa [type, status]
  · rw [type, status]
    exact fun export_ fulfilled => .inr ⟨row, seen, export_, fulfilled⟩

/-- What a review of a representative writes. -/
theorem Inv.review (h : Inv C db) {id : Uuid} {expected : DataSubjectRequestStatus}
    {values : DataSubjectRequest.Review} {row : DataSubjectRequest}
    (reviewable : expected.isReviewable = true) (seen : db.requests.view t id = some row)
    (current : row.status = expected) (free : db.requests.free t id = true) :
    Inv C { db with requests := db.requests.put t id (some (values.apply row)) } := by
  subst current
  have type : (values.apply row).requestType = row.requestType := by cases values <;> rfl
  have status : (values.apply row).status = row.status := by cases values <;> rfl
  have execution : (values.apply row).executionStatus = row.executionStatus := by
    cases values <;> rfl
  have undecided : ¬(row.status = .approved ∨ row.status = .fulfilled) := by
    rintro (is | is) <;> simp [is, DataSubjectRequestStatus.isReviewable] at reviewable
  have entitled : (values.apply row).IsEntitled := by
    intro kind
    exact absurd (status ▸ kind) undecided
  refine ⟨h.requests.put seen entitled ⟨type, .inl status⟩ (.inl status),
    h.erased.putRequest free ?_ ?_, fun about => (h.truth about).putRequest ?_, h.artifacts⟩
  · rw [type, status, execution]
    exact h.erased.view seen
  · intro mine
    obtain ⟨-, held, r, here, -, kind⟩ := h.erased.working id t mine
    rw [Table.view_of_held held] at seen
    cases seen.symm.trans here
    exact absurd kind undecided
  · rw [status]
    exact fun _ fulfilled => absurd (.inr fulfilled) undecided

theorem Inv.insertRequest (h : Inv C db) {id : Uuid} {row : DataSubjectRequest}
    (submitted : row.status = .submitted) (notStarted : row.executionStatus = .notStarted)
    (fresh : db.requests.view t id = none) (free : db.requests.free t id = true) :
    Inv C { db with requests := db.requests.put t id (some row) } := by
  refine ⟨h.requests.insert fresh (by simp [DataSubjectRequest.IsEntitled, submitted]),
    h.erased.putRequest free (by simp [submitted, notStarted]) ?_,
    fun about => (h.truth about).putRequest (by simp [submitted]), h.artifacts⟩
  intro mine
  obtain ⟨-, held, r, here, -⟩ := h.erased.working id t mine
  rw [Table.view_of_held held] at fresh
  cases fresh.symm.trans here

theorem Inv.lockRequest (h : Inv C db) {id : Uuid} {row : DataSubjectRequest}
    (seen : db.requests.view t id = some row) (free : db.requests.free t id = true) :
    Inv C { db with requests := db.requests.put t id (some row) } := by
  refine ⟨h.requests.put seen (h.requests.entitled.view seen) ⟨rfl, .inl rfl⟩ (.inl rfl),
    h.erased.putRequest free (h.erased.view seen) ?_,
    fun about => (h.truth about).putRequest fun kind fulfilled => .inr ⟨row, seen, kind, fulfilled⟩,
    h.artifacts⟩
  intro mine
  obtain ⟨-, held, r, here, kind⟩ := h.erased.working id t mine
  rw [Table.view_of_held held] at seen
  cases seen.symm.trans here
  exact kind

/-- What a flush of an artifact writes. -/
theorem Inv.flushArtifact (h : Inv C db) {writer : Writer} {id : Uuid}
    {loaded assigned row : ExportArtifact}
    (allowed : Allowed C t (.flushArtifact writer id loaded assigned) db)
    (ok : FlushArtifactOk C t writer id loaded assigned db)
    (seen : db.artifacts.view t id = some row) :
    Inv C { db with artifacts := db.artifacts.put t id (some (loaded.flush assigned row)) } := by
  refine ⟨h.requests, h.erased, fun about => (h.truth about).putArtifact seen ?_,
    h.artifacts.flush allowed ok seen⟩
  intro now usable fulfilling
  have spared := allowed.spares about
  rw [usable_iff] at usable ⊢
  have request : (loaded.flush assigned row).dataSubjectRequestId = row.dataSubjectRequestId := by
    simp [ExportArtifact.flush, ok.change.request]
  have expires : (loaded.flush assigned row).expiresAt = row.expiresAt := by
    simp [ExportArtifact.flush, ok.change.expires]
  simp only [sparesFulfilling, seen, Option.all_some, usable.2.1, bne_self_eq_false, fulfilling,
    Bool.not_true, Bool.or_false, Bool.false_or, beq_iff_eq] at spared
  exact ⟨request, spared, by rw [expires]; exact usable.2.2⟩

theorem Inv.commit (h : Inv C db)
    (ready : ∀ k, db.erased.holder k = some t →
      ∃ r, db.requests.pending k = some r ∧ r.status = .fulfilled) : Inv C (db.commit t) := by
  refine ⟨h.requests.commit t, h.erased.commit h.requests ready, fun about => ?_,
    h.artifacts.commit t⟩
  exact (h.truth about).ends rfl (fun _ _ settled => Table.settled_commit settled)
    fun _ _ _ held _ _ => Table.cell_commit_other held

theorem Inv.rollback (h : Inv C db) (t : τ) : Inv C (db.rollback t) := by
  refine ⟨h.requests.rollback t, h.erased.rollback t, fun about => ?_, h.artifacts.rollback t⟩
  exact (h.truth about).ends rfl (fun _ _ settled => Table.settled_rollback settled)
    fun _ _ _ held _ _ => Table.cell_rollback_other held

theorem Inv.restore (h : Inv C db) {saved : Saved} (needs : Needs C t (.rollbackTo saved) db) :
    Inv C (db.restore t saved) := by
  obtain ⟨artifacts, erased, kept⟩ := needs
  have is : db.restore t saved = { db with
      requests := db.requests.restore t saved.requests, artifacts := db.artifacts.rollback t
      erased := db.erased.rollback t } := by
    simp [Db.restore, artifacts, erased]
  rw [is]
  refine ⟨h.requests.restore kept, h.erased.restore kept, fun about => ?_, h.artifacts.rollback t⟩
  refine (h.truth about).ends rfl (fun _ _ settled => Table.settled_rollback settled) ?_
  intro k u r held here fulfilled
  by_cases own : u = t
  · subst own
    obtain ⟨mine, found⟩ := Table.pending_restore held here
    obtain ⟨r', before, is, there, ok⟩ := kept k (some r) mine found
    cases is
    simp [ok.status.1] at fulfilled
  · exact Table.cell_restore_other held own

theorem erased_evolves (h : Inv C db) (t : τ) : db.erased.Evolves erasedLaw (db.erased.commit t) := by
  rintro k ⟨⟩ here
  refine ⟨(), ?_, trivial⟩
  rw [Table.committed_commit]
  by_cases held : db.erased.holder k = some t
  · rw [Table.view_of_held held]
    exact (h.erased.working k t held).1
  · rwa [Table.view_of_not_held held]

/-- Every statement keeps the laws, if it has what it needs. -/
theorem Case.keeps (case : Case t s db db') (h : Inv C db) (allowed : Allowed C t s db)
    (needs : Needs C t s db) : Inv C db' ∧ Moves C t db db' := by
  cases case with
  | quiet => exact ⟨h, .refl C t db⟩
  | insertRequest id row is fresh free =>
      subst is
      exact ⟨h.insertRequest needs.1 needs.2 fresh free, .putRequest free⟩
  | lockRequest id row is seen free => exact ⟨h.lockRequest seen free, .putRequest free⟩
  | transition id expected values row is seen current verified free =>
      subst is
      exact ⟨h.transition allowed needs seen current verified free, .putRequest free⟩
  | review id expected expectedRepresentative values row is seen current free =>
      subst is
      exact ⟨h.review needs seen current free, .putRequest free⟩
  | flushRequest id loaded assigned row is seen free =>
      subst is
      exact ⟨h.flushRequest needs seen free, .putRequest free⟩
  | insertArtifact id row is fresh free =>
      subst is
      exact ⟨⟨h.requests, h.erased, fun about => (h.truth about).insertArtifact fresh,
        h.artifacts.insert fresh needs⟩, .putArtifact free⟩
  | touchArtifact id row next is seen stage free =>
      exact ⟨⟨h.requests, h.erased, fun about => (h.truth about).putArtifact seen
        fun _ usable _ => stage.usable usable, h.artifacts.touch seen stage⟩, .putArtifact free⟩
  | flushArtifact writer id loaded assigned row is _ seen free =>
      subst is
      exact ⟨h.flushArtifact allowed needs seen, .putArtifact free⟩
  | markErased request is free =>
      subst is
      obtain ⟨held, r, here, kind, status⟩ := needs
      exact ⟨⟨h.requests, h.erased.putErased held here kind status, h.truth, h.artifacts⟩,
        .putErased free⟩
  | noteCheck request now is =>
      subst is
      exact ⟨⟨h.requests, h.erased, fun about => (h.truth about).noteCheck needs _, h.artifacts⟩,
        ⟨.refl _ t _, .refl _ t _, .refl _ t _⟩⟩
  | restore saved is =>
      subst is
      refine ⟨h.restore needs, ⟨Table.respects_restore t _ _, fun k => ?_⟩,
        ⟨Table.respects_restore t _ _, fun k => ?_⟩, ⟨Table.respects_restore t _ _, fun k => ?_⟩⟩
      · simpa [Db.restore] using requestLaw.refl k _
      · simpa [Db.restore] using (artifactLaw C).refl k _
      · simpa [Db.restore] using erasedLaw.refl k _
  | commit is =>
      subst is
      exact ⟨h.commit needs, ⟨Table.respects_commit t _, h.requests.commit_evolves t⟩,
        ⟨Table.respects_commit t _, h.artifacts.commit_evolves t⟩,
        ⟨Table.respects_commit t _, erased_evolves h t⟩⟩
  | rollback is =>
      refine ⟨h.rollback t, ⟨Table.respects_rollback t _, fun k => ?_⟩,
        ⟨Table.respects_rollback t _, fun k => ?_⟩, ⟨Table.respects_rollback t _, fun k => ?_⟩⟩
      · simpa [Db.rollback] using requestLaw.refl k _
      · simpa [Db.rollback] using (artifactLaw C).refl k _
      · simpa [Db.rollback] using erasedLaw.refl k _

theorem Case.unchanged (case : Case t s db db') (open_ : s ≠ .commit) : Unchanged db db' := by
  cases case with
  | commit is => exact absurd is open_
  | _ => constructor <;> intro k <;> simp [Db.restore, Db.rollback]

/-- The privacy database as a store that clients use in transactions. -/
def privacyDiscipline (C : Concerns τ) : Discipline (machine τ) .commit .rollback where
  inv := Inv C
  moves := Moves C
  stays := Stays C
  unchanged := Unchanged
  needs t s db := Allowed C t s db ∧ Needs C t s db
  stays_refl := .refl C
  stays_trans := .trans
  stays_of_moves other moved := moved.stays other
  exec holds needs executed := by
    have case := exec_case executed
    exact ⟨(case.keeps holds needs.1 needs.2).1, (case.keeps holds needs.1 needs.2).2,
      case.unchanged⟩
  crash {t db} holds := by
    have case : Case t .rollback db (db.rollback t) := .rollback rfl
    have kept := case.keeps holds ⟨fun _ => rfl, fun _ => rfl, fun _ => rfl, fun _ => rfl⟩ trivial
    exact ⟨kept.1, kept.2, case.unchanged nofun⟩
  env := by
    rintro db _ holds ⟨clock, rfl⟩
    exact ⟨⟨holds.requests, holds.erased, holds.truth, holds.artifacts⟩,
      fun t => ⟨.refl _ t _, .refl _ t _, .refl _ t _⟩, ⟨fun _ => rfl, fun _ => rfl, fun _ => rfl⟩⟩
  unchanged_refl := .refl
  differ := rollback_ne_commit
  rollback_needs _ _ := ⟨⟨fun _ => rfl, fun _ => rfl, fun _ => rfl, fun _ => rfl⟩, trivial⟩
  rollback_ok executed := by
    cases executed
    exact ⟨(), rfl⟩
  certain := by simp [machine]

/-- Each client shows what its statements need. -/
def privacyTerms (C : Concerns τ) : Terms (privacyDiscipline C) where
  promise _ _ _ := True
  allowed := Allowed C
  shows := Needs C
  unbroken _ _ _ _ := trivial
  enough _ allowed shown := ⟨allowed, shown⟩
  rollback_shows _ _ := trivial

abbrev privacyContract (C : Concerns τ) : Contract τ Statement (Db τ) := (privacyTerms C).contract

end SaasTemplate.Privacy
