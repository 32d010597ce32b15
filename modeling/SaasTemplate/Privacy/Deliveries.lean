import SaasTemplate.Privacy.DeliveryPhases

/-! # A delivery is confirmed once

Between its `UPDATE` and its end a confirming transaction holds the row of the artifact, so
that nothing else can confirm or change it. The invariant of a run counts the committed
events; what a client in the middle of its transaction adds, its phase says.
-/

set_option linter.unusedSectionVars false

namespace SaasTemplate.Privacy

open SaasTemplate.Isolation SaasTemplate.Isolation.Prog

variable {τ : Type} [DecidableEq τ] {t u : τ}

/-- The committed delivery of an artifact. -/
def AuditedDb.delivery (db : AuditedDb τ) (id : Uuid) : Nat × Option Time :=
  deliveryOf (db.privacy.artifacts.committed id)

/-! ## Versions of a transaction -/

section Versions

variable {A A' : Table Uuid τ ExportArtifact}

/-- What `t` has written leaves all deliveries as they are committed. -/
def KeepsDeliveries (t : τ) (A : Table Uuid τ ExportArtifact) : Prop :=
  ∀ k, deliveryOf (A.view t k) = deliveryOf (A.committed k)

/-- Going back to `saved` also leaves them so. -/
def Restorable (t : τ) (saved : List (Uuid × Option ExportArtifact))
    (A : Table Uuid τ ExportArtifact) : Prop :=
  ∀ k v, saved.lookup k = some v → A.holder k = some t ∧ deliveryOf v = deliveryOf (A.committed k)

theorem keepsDeliveries_of_holdsNone (h : Table.HoldsNone t A) : KeepsDeliveries t A := fun k => by
  rw [Table.view_of_not_held (h k)]

theorem KeepsDeliveries.keeps (h : KeepsDeliveries t A) (keeps : A.Keeps t A') :
    KeepsDeliveries t A' := by
  intro k
  by_cases held : A.holder k = some t
  · have same := keeps.cell held
    simpa [Table.view, Table.committed, same] using h k
  · rw [Table.view_of_not_held (keeps.not_held held)]

theorem KeepsDeliveries.spared (h : KeepsDeliveries t A) (spared : Spared t A A') :
    KeepsDeliveries t A' := by
  cases spared with
  | same => exact h
  | put id next free same =>
      intro k
      by_cases is : k = id
      · subst is
        simpa [same] using h k
      · simpa [Table.view_put_other is] using h k

theorem Restorable.keeps {saved : List (Uuid × Option ExportArtifact)} (h : Restorable t saved A)
    (keeps : A.Keeps t A') : Restorable t saved A' := by
  intro k v found
  obtain ⟨held, same⟩ := h k v found
  refine ⟨keeps.held_iff.mpr held, ?_⟩
  simpa [Table.committed, keeps.cell held] using same

theorem Restorable.spared {saved : List (Uuid × Option ExportArtifact)} (h : Restorable t saved A)
    (spared : Spared t A A') : Restorable t saved A' := by
  cases spared with
  | same => exact h
  | put id next free same =>
      intro k v found
      obtain ⟨held, is⟩ := h k v found
      refine ⟨?_, by simpa using is⟩
      by_cases here : k = id
      · subst here
        simp
      · rwa [Table.holder_put_other here]

theorem restorable_own (h : KeepsDeliveries t A) : Restorable t (A.own t) A := by
  intro k v found
  obtain ⟨held, pending⟩ := Table.mem_own.mp (Table.lookup_mem found)
  refine ⟨held, ?_⟩
  rw [← h k, Table.view_of_held held, pending]

theorem Restorable.restore {saved : List (Uuid × Option ExportArtifact)}
    (h : Restorable t saved A) : Restorable t saved (A.restore t saved) := by
  intro k v found
  obtain ⟨held, same⟩ := h k v found
  have cell : (A.restore t saved).cell k = (A.cell k).put t v := by
    simp [Table.restore, held, found]
  exact ⟨by simp [Table.holder, cell], by simpa using same⟩

theorem Restorable.undisturbed {saved : List (Uuid × Option ExportArtifact)}
    (h : Restorable t saved A) : KeepsDeliveries t (A.restore t saved) := by
  intro k
  rw [Table.committed_restore]
  by_cases held : A.holder k = some t
  · rcases Table.cell_restore_of_held saved held with ⟨v, found, is⟩ | is
    · simpa [Table.view, is] using (h k v found).2
    · have gone : ((A.cell k).rollback t).holder ≠ some t := by
        rw [Cell.holder_rollback, if_pos (show (A.cell k).holder = some t from held)]
        simp
      simp [Table.view, is, Cell.view_of_free_of_not_held gone, Table.committed]
  · rw [Table.view, Table.cell_restore_of_not_held held]
    exact congrArg deliveryOf (Table.view_of_not_held held)

end Versions

/-! ## Runs -/

/-- A run of operations with its audit events. -/
abbrev DeliveryConfig (τ : Type) : Type :=
  Config τ Statement Answer AppError (AuditedDb τ) (Option Renewal)

section Runs

variable {op : τ → PrivacyOp} {start base c d : DeliveryConfig τ}

/-- One step of a run, whatever is executed. -/
abbrev DeliveryStep (op : τ → PrivacyOp) : DeliveryConfig τ → DeliveryConfig τ → Prop :=
  (auditedMachine op).Step fun _ _ _ => True

abbrev DeliveryReaches (op : τ → PrivacyOp) : DeliveryConfig τ → DeliveryConfig τ → Prop :=
  (auditedMachine op).Reaches fun _ _ _ => True

/-- In the step from `b` to `d`, `t` confirms the delivery of `id` at `now`, a clock value of
    the run before. The artifact and its request are as they are committed in `b`. -/
structure Confirms (op : τ → PrivacyOp) (start b d : DeliveryConfig τ) (t : τ) (id : Uuid)
    (now : Time) : Prop where
  before : DeliveryReaches op start b
  step : DeliveryStep op b d
  waiting : b.waiting t = some (.confirmDelivery id now)
  deliverable : ∃ a request, b.db.privacy.artifacts.committed id = some a ∧
    b.db.privacy.requests.committed a.dataSubjectRequestId = some request ∧
    Deliverable now a request
  written : deliveryOf (d.db.privacy.artifacts.view t id) = (1, some now)
  clock : ∃ a, DeliveryReaches op start a ∧ DeliveryReaches op a b ∧ a.db.privacy.clock = now

/-- The delivery was confirmed in the run from `start` to `c`. -/
def WasConfirmed (op : τ → PrivacyOp) (start c : DeliveryConfig τ) (id : Uuid) (now : Time) :
    Prop :=
  ∃ b d t, Confirms op start b d t id now ∧ DeliveryReaches op d c

theorem WasConfirmed.later {id : Uuid} {now : Time} (h : WasConfirmed op start c id now)
    (run : DeliveryReaches op c d) : WasConfirmed op start d id now := by
  obtain ⟨b, e, t, confirms, after⟩ := h
  exact ⟨b, e, t, confirms, after.trans run⟩

/-- An operation that does not confirm, in the middle of its transaction. -/
structure Calm (op : τ → PrivacyOp) (t : τ) (db : AuditedDb τ) : Prop where
  entry : (op t).auditEntry = .other
  recorded : ∀ e ∈ db.recorded t, e = .other
  undisturbed : KeepsDeliveries t db.privacy.artifacts

/-- A transaction without a lock or an event. -/
structure Untouched (t : τ) (db : AuditedDb τ) : Prop where
  artifacts : Table.HoldsNone t db.privacy.artifacts
  requests : Table.HoldsNone t db.privacy.requests
  recorded : db.recorded t = []

/-- `t` has confirmed the delivery of `id`, and has not committed. -/
structure Confirmed (op : τ → PrivacyOp) (start : DeliveryConfig τ) (t : τ) (id : Uuid) (now : Time)
    (c : DeliveryConfig τ) : Prop where
  entry : (op t).auditEntry = .deliveryConfirmed id
  only : Table.HoldsOnly t id c.db.privacy.artifacts
  held : c.db.privacy.artifacts.holder id = some t
  written : deliveryOf (c.db.privacy.artifacts.view t id) = (1, some now)
  undelivered : c.db.delivery id = (0, none)
  confirmed : WasConfirmed op start c id now

/-- What a phase says of the run. -/
def AtPhase (op : τ → PrivacyOp) (start : DeliveryConfig τ) (t : τ) (φ : DeliveryPhase)
    (c : DeliveryConfig τ) : Prop :=
  match φ with
  | .working => Calm op t c.db
  | .saved own => Calm op t c.db ∧ Restorable t own.artifacts c.db.privacy.artifacts
  | .fresh now => Untouched t c.db ∧ ∀ clock, now = some clock →
      ∃ a, DeliveryReaches op start a ∧ DeliveryReaches op a c ∧ a.db.privacy.clock = clock
  | .confirmed now => ∃ id, Confirmed op start t id now c ∧ c.db.recorded t = []
  | .recorded now =>
      ∃ id, Confirmed op start t id now c ∧ c.db.recorded t = [.deliveryConfirmed id]

/-- The deliveries of a run: those of `base` are as they were, all others were confirmed. -/
structure DeliveryInv (op : τ → PrivacyOp) (start base c : DeliveryConfig τ) : Prop where
  run : DeliveryReaches op start c
  kept : ∀ k now, base.db.delivery k = (1, some now) → c.db.delivery k = (1, some now)
  delivered : ∀ k, c.db.delivery k = (0, none) ∨ ∃ now, c.db.delivery k = (1, some now) ∧
    (start.db.delivery k = (1, some now) ∨ WasConfirmed op start c k now)
  logged : ∀ k, c.db.log.count (.deliveryConfirmed k) = (c.db.delivery k).1

/-! ### What stays -/

/-- What the steps of the others, and its own reading, leave to `t`. -/
structure Leaves (t : τ) (db db' : AuditedDb τ) : Prop where
  artifacts : db.privacy.artifacts.Keeps t db'.privacy.artifacts
  requests : db.privacy.requests.Keeps t db'.privacy.requests
  recorded : db'.recorded t = db.recorded t

theorem Calm.stays {db db' : AuditedDb τ} (h : Calm op t db) (stays : Leaves t db db') :
    Calm op t db' :=
  ⟨h.entry, stays.recorded ▸ h.recorded, h.undisturbed.keeps stays.artifacts⟩

theorem Confirmed.keeps {id : Uuid} {now : Time} (h : Confirmed op start t id now c)
    (keeps : c.db.privacy.artifacts.Keeps t d.db.privacy.artifacts) (run : DeliveryReaches op c d) :
    Confirmed op start t id now d := by
  have same := keeps.cell h.held
  refine ⟨h.entry, keeps.holdsOnly h.only, keeps.held_iff.mpr h.held, ?_, ?_, h.confirmed.later run⟩
  · simpa [Table.view, same] using h.written
  · simpa [AuditedDb.delivery, Table.committed, same] using h.undelivered

theorem AtPhase.stays {φ : DeliveryPhase} (h : AtPhase op start t φ c) (stays : Leaves t c.db d.db)
    (run : DeliveryReaches op c d) : AtPhase op start t φ d := by
  cases φ with
  | working => exact Calm.stays h stays
  | saved own => exact ⟨h.1.stays stays, h.2.keeps stays.artifacts⟩
  | fresh now =>
      refine ⟨⟨stays.artifacts.holdsNone h.1.artifacts, stays.requests.holdsNone h.1.requests,
        stays.recorded.trans h.1.recorded⟩, fun clock is => ?_⟩
      obtain ⟨a, before, after, shown⟩ := h.2 clock is
      exact ⟨a, before, after.trans run, shown⟩
  | confirmed now | recorded now =>
      obtain ⟨id, held, recorded⟩ := h
      exact ⟨id, held.keeps stays.artifacts run, stays.recorded.trans recorded⟩

/-- A transaction that has written nothing is in its first phase. -/
theorem Untouched.initial (h : Untouched t c.db) :
    AtPhase op start t (.initial (op t).auditEntry) c := by
  cases is : (op t).auditEntry with
  | deliveryConfirmed id => exact ⟨h, nofun⟩
  | other => exact ⟨is, by simp [h.recorded], keepsDeliveries_of_holdsNone h.artifacts⟩

/-- A step that commits no delivery. -/
theorem DeliveryInv.same (h : DeliveryInv op start base c) (step : DeliveryStep op c d)
    (same : ∀ k, d.db.delivery k = c.db.delivery k)
    (log : ∀ k, d.db.log.count (.deliveryConfirmed k) = c.db.log.count (.deliveryConfirmed k)) :
    DeliveryInv op start base d := by
  refine ⟨h.run.tail step, fun k now is => ?_, fun k => ?_, fun k => ?_⟩
  · rw [same k, h.kept k now is]
  · rw [same k]
    rcases h.delivered k with none | ⟨now, is, known⟩
    · exact .inl none
    · exact .inr ⟨now, is, known.imp_right fun was => was.later (.single step)⟩
  · rw [same k, log k, h.logged k]

/-! ### One statement -/

section Execution

variable {entry : AuditEntry} {s : Statement} {db : AuditedDb τ} {privacy : Db τ}

theorem follow_privacy : (db.follow entry t s privacy).privacy = privacy := by
  cases s <;> rfl

theorem follow_other (other : u ≠ t) :
    (db.follow entry t s privacy).recorded u = db.recorded u := by
  cases s <;> simp [AuditedDb.follow, Function.update_of_ne other]

theorem follow_log (open_ : s ≠ .commit) : (db.follow entry t s privacy).log = db.log := by
  cases s <;> first | rfl | exact absurd rfl open_

theorem follow_quiet (recording : s ≠ .recordAuditEvent) (open_ : s ≠ .commit)
    (goes : s ≠ .rollback) : (db.follow entry t s privacy).recorded = db.recorded := by
  cases s <;> first | rfl | contradiction

/-- The other transactions keep what they have. -/
theorem Case.leaves {db' : AuditedDb τ} (case : Case t s db.privacy privacy)
    (after : db' = db.follow entry t s privacy) (other : u ≠ t) : Leaves u db db' := by
  subst after
  refine ⟨?_, ?_, follow_other other⟩ <;> rw [follow_privacy]
  · exact case.respects.2.keeps other
  · exact case.respects.1.keeps other

theorem Calm.spared {r : Except AppError (Answer s)} {db' : AuditedDb τ} (h : Calm op t db)
    (spares : s.sparesDeliveries = true) (executed : exec t s db.privacy = some (r, privacy))
    (after : db' = db.follow (op t).auditEntry t s privacy) : Calm op t db' := by
  subst after
  refine ⟨h.entry, ?_, ?_⟩
  · by_cases recording : s = .recordAuditEvent
    · subst recording
      simpa [AuditedDb.follow, h.entry] using h.recorded
    · rw [follow_quiet recording (by rintro rfl; cases spares) (by rintro rfl; cases spares)]
      exact h.recorded
  · rw [follow_privacy]
    exact h.undisturbed.spared (exec_spares spares executed)

end Execution

/-- The step of `t` with which its phase goes on. -/
structure Executes (op : τ → PrivacyOp) (c d : DeliveryConfig τ) (t : τ) (s : Statement)
    (r : Except AppError (Answer s)) (privacy : Db τ) : Prop where
  step : DeliveryStep op c d
  waiting : c.waiting t = some s
  executed : exec t s c.db.privacy = some (r, privacy)
  after : d.db = c.db.follow (op t).auditEntry t s privacy

section Phases

variable {s : Statement} {r : Except AppError (Answer s)} {privacy : Db τ} {φ ψ : DeliveryPhase}

theorem Executes.privacy_eq (h : Executes op c d t s r privacy) : d.db.privacy = privacy := by
  rw [h.after, follow_privacy]

/-- A statement that changes nothing `t` goes by. -/
theorem Executes.leaves (h : Executes op c d t s r privacy)
    (artifacts : privacy.artifacts = c.db.privacy.artifacts)
    (requests : privacy.requests = c.db.privacy.requests)
    (quiet : s ≠ .recordAuditEvent ∧ s ≠ .commit ∧ s ≠ .rollback) : Leaves t c.db d.db := by
  refine ⟨?_, ?_, ?_⟩
  · rw [h.privacy_eq, artifacts]
    exact .refl t _
  · rw [h.privacy_eq, requests]
    exact .refl t _
  · rw [h.after, follow_quiet quiet.1 quiet.2.1 quiet.2.2]

/-- The phases of an operation that does not confirm. -/
theorem AtPhase.works_exec (holds : AtPhase op start t φ c) (works : φ.works = true)
    (h : Executes op c d t s r privacy) (open_ : s ≠ .commit) (goes : s ≠ .rollback)
    (next : DeliveryPhase.next (op t).auditEntry φ s r = some ψ) : AtPhase op start t ψ d := by
  have calm : Calm op t c.db := by
    cases φ with
    | working => exact holds
    | saved own => exact holds.1
    | fresh | confirmed | recorded => cases works
  by_cases spares : s.sparesDeliveries = true
  · cases (next_of_spares works spares r).symm.trans next
    have calm := calm.spared spares h.executed h.after
    cases φ with
    | working => exact calm
    | saved own => exact ⟨calm, h.privacy_eq ▸ holds.2.spared (exec_spares spares h.executed)⟩
    | fresh | confirmed | recorded => cases works
  · cases s with
    | commit | rollback => contradiction
    | confirmDelivery id now =>
        obtain ⟨⟨-, is⟩, -⟩ := Option.ite_none_right_eq_some.mp next
        subst is
        cases works
    | savepoint =>
        have unchanged := h.executed
        cases unchanged
        cases (if_pos works).symm.trans next
        have leaves := h.leaves rfl rfl ⟨nofun, nofun, nofun⟩
        refine ⟨calm.stays leaves, ?_⟩
        rw [h.privacy_eq]
        exact restorable_own calm.undisturbed
    | rollbackTo own =>
        obtain ⟨rfl, is⟩ := Option.ite_none_right_eq_some.mp next
        cases is
        have restored := h.executed
        cases restored
        refine ⟨⟨calm.entry, ?_, ?_⟩, ?_⟩
        · rw [h.after]
          exact calm.recorded
        · rw [h.privacy_eq]
          exact holds.2.undisturbed
        · rw [h.privacy_eq]
          exact holds.2.restore
    | insertArtifact | flushArtifact =>
        cases r <;> obtain ⟨allowed, -⟩ := Option.ite_none_right_eq_some.mp next <;>
          cases φ <;> first | exact absurd allowed spares | cases works
    | _ => exact absurd rfl spares

/-- The `UPDATE` of a transaction that has touched nothing confirms what is committed. -/
theorem Untouched.confirms {id : Uuid} {now : Time} {r : Except AppError Bool}
    (untouched : Untouched t c.db) (entry : (op t).auditEntry = .deliveryConfirmed id)
    (run : DeliveryReaches op start c)
    (clock : ∃ a, DeliveryReaches op start a ∧ DeliveryReaches op a c ∧ a.db.privacy.clock = now)
    (h : Executes op c d t (.confirmDelivery id now) r privacy) (newly : r = .ok true) :
    AtPhase op start t (.confirmed now) d := by
  rcases exec_confirmDelivery h.executed with
    ⟨-, other⟩ | ⟨-, a, request, seen, there, ok, free, is⟩
  · exact absurd newly other
  rw [Table.view_of_not_held (untouched.artifacts _)] at seen
  rw [Table.view_of_not_held (untouched.requests _)] at there
  have written : d.db.privacy.artifacts = (c.db.privacy.artifacts.put t id
      (some { a with downloadCount := 1, downloadedAt := some now })) := by rw [h.privacy_eq, is]
  refine ⟨id, ⟨entry, ?_, ?_, ?_, ?_, ?_⟩, ?_⟩
  · rw [written]
    exact (untouched.artifacts.only id).put _
  · simp [written]
  · simp [written, deliveryOf]
  · simp [AuditedDb.delivery, written, seen, deliveryOf, ok.undelivered]
  · refine ⟨c, d, t, ⟨run, h.step, h.waiting, ⟨a, request, seen, there, ok⟩, ?_, clock⟩, .refl⟩
    simp [written, deliveryOf]
  · rw [h.after]
    exact untouched.recorded

/-- The phases of a confirming operation before its `UPDATE`. -/
theorem AtPhase.fresh_exec {seen : Option Time} (holds : AtPhase op start t (.fresh seen) c)
    (run : DeliveryReaches op start c) (h : Executes op c d t s r privacy) (open_ : s ≠ .commit)
    (goes : s ≠ .rollback)
    (next : DeliveryPhase.next (op t).auditEntry (.fresh seen) s r = some ψ) :
    AtPhase op start t ψ d := by
  have further : DeliveryReaches op c d := .single h.step
  by_cases confirming : ∃ id now, s = .confirmDelivery id now
  · obtain ⟨id, now, rfl⟩ := confirming
    obtain ⟨⟨entry, is⟩, after⟩ := Option.ite_none_right_eq_some.mp next
    cases is
    by_cases newly : r = .ok true
    · subst newly
      cases after
      exact holds.1.confirms entry run (holds.2 now rfl) h rfl
    · rcases exec_confirmDelivery h.executed with ⟨rfl, -⟩ | ⟨is, -⟩
      · have stays := AtPhase.stays holds (h.leaves rfl rfl ⟨nofun, nofun, nofun⟩) further
        split at after
        · exact absurd rfl newly
        · cases after
          exact stays
      · exact absurd is newly
  · have lookup : s.isLookup = true := by
      cases s with
      | commit | rollback => contradiction
      | confirmDelivery id now => exact absurd ⟨id, now, rfl⟩ confirming
      | now | requestById | artifactById | artifactsOfRequest => rfl
      | _ => cases r <;> cases next
    have unchanged := exec_lookup lookup h.executed
    have leaves := h.leaves (by rw [unchanged]) (by rw [unchanged])
      ⟨(by rintro rfl; cases lookup), open_, goes⟩
    have stays := AtPhase.stays holds leaves further
    by_cases reads : s = .now
    · subst reads
      cases r with
      | error e =>
          cases next
          exact stays
      | ok clock =>
          cases next
          have shown := h.executed
          cases shown
          exact ⟨stays.1, fun _ is => ⟨c, run, further, by cases is; rfl⟩⟩
    · cases s <;> first | contradiction | (cases r <;> cases next <;> exact stays)

/-- The phases of a confirming operation after its `UPDATE`. -/
theorem AtPhase.confirmed_exec {now : Time} (holds : AtPhase op start t (.confirmed now) c)
    (h : Executes op c d t s r privacy) (open_ : s ≠ .commit) (goes : s ≠ .rollback)
    (next : DeliveryPhase.next (op t).auditEntry (.confirmed now) s r = some ψ) :
    AtPhase op start t ψ d := by
  obtain ⟨id, held, recorded⟩ := holds
  have further : DeliveryReaches op c d := .single h.step
  by_cases recording : s = .recordAuditEvent
  · subst recording
    have unchanged := h.executed
    cases unchanged
    cases next
    refine ⟨id, held.keeps (by rw [h.privacy_eq]; exact .refl t _) further, ?_⟩
    simp [h.after, AuditedDb.follow, held.entry, recorded]
  · have same : privacy.artifacts = c.db.privacy.artifacts := by
      cases s with
      | commit | rollback | recordAuditEvent => contradiction
      | flushRequest id loaded assigned => exact exec_flushRequest h.executed
      | now | requestById | artifactById | artifactsOfRequest => rw [exec_lookup rfl h.executed]
      | confirmDelivery _ _ =>
          obtain ⟨⟨-, is⟩, -⟩ := Option.ite_none_right_eq_some.mp next
          cases is
      | _ => cases r <;> cases next
    have keeps : c.db.privacy.artifacts.Keeps t d.db.privacy.artifacts := by
      rw [h.privacy_eq, same]
      exact .refl t _
    have later : AtPhase op start t (.confirmed now) d := by
      refine ⟨id, held.keeps keeps further, ?_⟩
      rw [h.after, follow_quiet recording open_ goes, recorded]
    cases s with
    | commit | rollback | recordAuditEvent => contradiction
    | confirmDelivery _ _ =>
        obtain ⟨⟨-, is⟩, -⟩ := Option.ite_none_right_eq_some.mp next
        cases is
    | _ => cases r <;> cases next <;> exact later

theorem AtPhase.exec (holds : AtPhase op start t φ c) (run : DeliveryReaches op start c)
    (h : Executes op c d t s r privacy) (open_ : s ≠ .commit) (goes : s ≠ .rollback)
    (next : DeliveryPhase.next (op t).auditEntry φ s r = some ψ) : AtPhase op start t ψ d := by
  cases φ with
  | working | saved own => exact holds.works_exec rfl h open_ goes next
  | fresh seen => exact holds.fresh_exec run h open_ goes next
  | confirmed now => exact holds.confirmed_exec h open_ goes next
  | recorded now =>
      cases s with
      | commit | rollback => contradiction
      | confirmDelivery _ _ =>
          obtain ⟨⟨-, is⟩, -⟩ := Option.ite_none_right_eq_some.mp next
          cases is
      | _ => cases r <;> cases next

/-- After its end a transaction has touched nothing. -/
theorem untouched_of_ended (ended : s = .commit ∨ s = .rollback)
    (h : Executes op c d t s r privacy) : Untouched t d.db := by
  have executed := h.executed
  rcases ended with rfl | rfl <;> cases executed <;>
    refine ⟨?_, ?_, by simp [h.after, AuditedDb.follow]⟩
  all_goals
    rw [h.privacy_eq]
    intro k held
    simp only [Db.commit, Db.rollback, Table.holder_commit, Table.holder_rollback] at held
    split at held
    · cases held
    · contradiction

/-- What a commit adds. -/
theorem DeliveryInv.commit (inv : DeliveryInv op start base c) {r : Except AppError Unit}
    (holds : AtPhase op start t φ c) (h : Executes op c d t .commit r privacy)
    (next : DeliveryPhase.next (op t).auditEntry φ .commit r = some ψ) :
    DeliveryInv op start base d := by
  have executed := h.executed
  cases executed
  have delivery : ∀ k, d.db.delivery k = deliveryOf (c.db.privacy.artifacts.view t k) := by
    intro k
    simp [AuditedDb.delivery, h.privacy_eq, Db.commit, Table.committed_commit]
  have log : d.db.log = c.db.recorded t ++ c.db.log := by rw [h.after]; rfl
  have calm : Calm op t c.db → DeliveryInv op start base d := by
    intro calm
    refine inv.same h.step (fun k => (delivery k).trans (calm.undisturbed k)) fun k => ?_
    rw [log, List.count_append, List.count_eq_zero.mpr, Nat.zero_add]
    exact fun member => by cases calm.recorded _ member
  cases φ with
  | working => exact calm holds
  | saved own => exact calm holds.1
  | fresh seen =>
      have quiet := keepsDeliveries_of_holdsNone holds.1.artifacts
      refine inv.same h.step (fun k => (delivery k).trans (quiet k)) fun k => ?_
      rw [log, holds.1.recorded, List.nil_append]
  | confirmed now => cases next
  | recorded now =>
      obtain ⟨id, held, recorded⟩ := holds
      have other : ∀ k, k ≠ id → d.db.delivery k = c.db.delivery k := by
        intro k differs
        rw [delivery, Table.view_of_not_held fun mine => differs (held.only k mine)]
        rfl
      have mine : d.db.delivery id = (1, some now) := (delivery id).trans held.written
      refine ⟨inv.run.tail h.step, fun k at_ is => ?_, fun k => ?_, fun k => ?_⟩
      · by_cases same : k = id
        · subst same
          cases (inv.kept k at_ is).symm.trans held.undelivered
        · rw [other k same, inv.kept k at_ is]
      · by_cases same : k = id
        · subst same
          exact .inr ⟨now, mine, .inr (held.confirmed.later (.single h.step))⟩
        · rw [other k same]
          rcases inv.delivered k with none | ⟨at_, is, known⟩
          · exact .inl none
          · exact .inr ⟨at_, is, known.imp_right fun was => was.later (.single h.step)⟩
      · rw [log, recorded, List.singleton_append, List.count_cons, inv.logged k]
        by_cases same : k = id
        · subst same
          simp [mine, held.undelivered]
        · have differs : id ≠ k := fun is => same is.symm
          simp [other k same, differs]

end Phases

/-! ### Whole runs -/

theorem Leaves.refl (t : τ) (db : AuditedDb τ) : Leaves t db db := ⟨.refl t _, .refl t _, rfl⟩

theorem DeliveryInv.exec {s : Statement} {r : Except AppError (Answer s)} {privacy : Db τ}
    (inv : DeliveryInv op start base c) (h : Executes op c d t s r privacy) (open_ : s ≠ .commit) :
    DeliveryInv op start base d := by
  refine inv.same h.step (fun k => ?_) fun k => by rw [h.after, follow_log open_]
  rw [AuditedDb.delivery, h.privacy_eq, (exec_case h.executed).committed open_]
  rfl

/-- A statement that fails leaves its client in its phase. -/
theorem next_error {entry : AuditEntry} {φ ψ : DeliveryPhase} {s : Statement} {e : AppError}
    (goes : s ≠ .rollback) (next : DeliveryPhase.next entry φ s (.error e) = some ψ) : ψ = φ := by
  cases s with
  | rollback => contradiction
  | commit => exact (Option.some.inj next).symm
  | _ => exact (Option.some.inj (Option.ite_none_right_eq_some.mp next).2).symm

/-- The steps of the operations go from phase to phase. -/
theorem deliveries_phased (op : τ → PrivacyOp) (start base : DeliveryConfig τ) :
    Phased (auditedMachine op) (fun _ _ _ => True) (fun t => (op t).phases)
      (DeliveryInv op start base) (AtPhase op start) where
  exec {c t s k r db' φ ψ} inv running _ executed holds next := by
    have step : DeliveryStep op c _ := .exec running trivial executed
    obtain ⟨⟨answer, privacy⟩, done, is⟩ := Option.map_eq_some_iff.mp executed
    cases is
    have h : Executes op c _ t s answer privacy :=
      ⟨step, by simp [Config.waiting, running], done, rfl⟩
    have others : ∀ u χ, u ≠ t → AtPhase op start u χ c → AtPhase op start u χ _ :=
      fun u χ other held => held.stays ((exec_case done).leaves h.after other) (.single h.step)
    by_cases commits : s = .commit
    · subst commits
      refine ⟨⟨inv.commit holds h next, others⟩, ?_⟩
      cases done
      have ends : AtPhase op start t (.initial (op t).auditEntry) _ :=
        (untouched_of_ended (.inl rfl) h).initial
      cases (Option.ite_none_left_eq_some.mp next).2
      exact ends
    · refine ⟨⟨inv.exec h commits, others⟩, ?_⟩
      by_cases goes : s = .rollback
      · subst goes
        have ends : AtPhase op start t (.initial (op t).auditEntry) _ :=
          (untouched_of_ended (.inr rfl) h).initial
        cases next
        exact ends
      · exact holds.exec inv.run h commits goes next
  fault {c t s k e φ ψ} inv running may holds next := by
    have step : DeliveryStep op c ⟨c.db, Function.update c.run t (some (k (.error e)))⟩ :=
      .fault e running may
    have stays : ∀ u χ, AtPhase op start u χ c →
        AtPhase op start u χ ⟨c.db, Function.update c.run t (some (k (.error e)))⟩ :=
      fun u χ held => held.stays (Leaves.refl u c.db) (.single step)
    refine ⟨⟨inv.same step (fun _ => rfl) fun _ => rfl, fun u χ _ => stays u χ⟩, ?_⟩
    cases next_error may next
    exact stays t _ holds
  crash {c t s k} inv running := by
    have step : DeliveryStep op c _ := .crash running
    refine ⟨inv.same step (fun k => ?_) fun _ => rfl, fun u χ other held => ?_⟩
    · simp [AuditedDb.delivery, auditedMachine, AuditedDb.rollback, Db.rollback]
    · refine held.stays (d := ⟨_, _⟩) ⟨?_, ?_, ?_⟩ (.single step)
      · exact (Table.respects_rollback t _).keeps other
      · exact (Table.respects_rollback t _).keeps other
      · exact Function.update_of_ne other _ _
  env {c db'} inv moved := by
    have step : DeliveryStep op c ⟨db', c.run⟩ := .env moved
    obtain ⟨clock, rfl⟩ := moved
    exact ⟨inv.same step (fun _ => rfl) fun _ => rfl, fun u χ held =>
      held.stays (d := ⟨_, _⟩) ⟨.refl u _, .refl u _, rfl⟩ (.single step)⟩

/-- Operations that are about to run, on a committed database whose deliveries agree with
    its audit events. -/
structure DeliveryStart (settings : ExportSettings) (op : τ → PrivacyOp)
    (c : DeliveryConfig τ) : Prop where
  requests : ∀ k, c.db.privacy.requests.holder k = none
  artifacts : ∀ k, c.db.privacy.artifacts.holder k = none
  recorded : ∀ t, c.db.recorded t = []
  operations : ∀ t, c.run t = some ((op t).program settings)
  delivered : ∀ k, c.db.delivery k = (0, none) ∨ ∃ now, c.db.delivery k = (1, some now)
  logged : ∀ k, c.db.log.count (.deliveryConfirmed k) = (c.db.delivery k).1

theorem DeliveryStart.inv {settings : ExportSettings} (h : DeliveryStart settings op start) :
    DeliveryInv op start start start :=
  ⟨.refl, fun _ _ is => is, fun k => (h.delivered k).imp_right fun ⟨now, is⟩ =>
    ⟨now, is, .inl is⟩, h.logged⟩

theorem DeliveryStart.phases {settings : ExportSettings} (h : DeliveryStart settings op start) :
    InPhase (fun t => (op t).phases) (AtPhase op start) start := by
  intro t p running
  cases (h.operations t).symm.trans running
  refine ⟨_, (op t).program_follows, Untouched.initial ⟨?_, ?_, h.recorded t⟩⟩ <;> intro k held
  · cases (h.artifacts k).symm.trans held
  · cases (h.requests k).symm.trans held

end Runs

/-- Two clients confirm the delivery of artifact 10. -/
def exampleConfirmations (_ : Bool) : PrivacyOp := .artifact (.confirmDelivery 10)

def exampleDeliveryStart : DeliveryConfig Bool :=
  ⟨⟨exampleDb, fun _ => [], []⟩, fun t => some ((exampleConfirmations t).program exampleSettings)⟩

theorem exampleDeliveryStart_delivery (k : Uuid) :
    exampleDeliveryStart.db.delivery k = (0, none) := by
  simp only [AuditedDb.delivery, exampleDeliveryStart, exampleDb, Table.committed_ofRows]
  cases found : List.lookup k [((10 : Uuid), exampleArtifact .ready)] with
  | none => rfl
  | some a =>
      have is := Table.lookup_mem found
      simp only [List.mem_singleton, Prod.mk.injEq] at is
      rw [is.2]
      rfl

theorem exampleDeliveryStart_start :
    DeliveryStart exampleSettings exampleConfirmations exampleDeliveryStart where
  requests := Table.holder_ofRows _
  artifacts := Table.holder_ofRows _
  recorded _ := rfl
  operations _ := rfl
  delivered k := .inl (exampleDeliveryStart_delivery k)
  logged k := by
    rw [exampleDeliveryStart_delivery]
    rfl

theorem anything_confirmed (_ : Bool) (_ : Statement) (_ : AuditedDb Bool) (_ : true = true) :
    True := trivial

end SaasTemplate.Privacy
