import SaasTemplate.Isolation.Runs
import SaasTemplate.Privacy.Idempotency

/-! # Submissions with one key

A submission checks the key under the lock of its requester and adds its request under the
same lock, so it keeps the contract. In a run one request is created for the key until it
has expired, and the other submissions return it.
-/

set_option linter.unusedSectionVars false

namespace SaasTemplate.Privacy

open SaasTemplate.Isolation SaasTemplate.Isolation.Prog

variable {τ : Type} [DecidableEq τ] {t u : τ} {s : Statement} {db db' : UsersDb τ}
  {requester : Uuid} {hash : String} {client : τ → Option (Time × Option String)}

/-! ## A submission keeps it -/

section Submit

variable {ops : SubmissionOps} {call : SubmitCall} {now : Time} {k : Uuid}

/-- Row `k`, as `rows` shows it, is a request for the key that has not expired at `now`. -/
def Stands (requester : Uuid) (hash : String) (now : Time) (k : Uuid)
    (rows : Uuid → Option DataSubjectRequest) : Prop :=
  ∃ r, rows k = some r ∧ r.isFor requester hash = true ∧ r.heldAt now = true

/-- A committed request for the key has not expired at `now`, and has another fingerprint. -/
def Refused (requester : Uuid) (hash : String) (now : Time) (fingerprint : Option String)
    (R : Table Uuid τ DataSubjectRequest) : Prop :=
  ∃ k r, R.committed k = some r ∧ r.isFor requester hash = true ∧ r.heldAt now = true ∧
    r.idempotencyFingerprint ≠ fingerprint

/-- How a submission ends: with a request that stands, or for a conflict with one. -/
def SubmissionEnded (requester : Uuid) (hash : String) (now : Time) (fingerprint : Option String)
    (rows : Uuid → Option DataSubjectRequest) (R : Table Uuid τ DataSubjectRequest) :
    Except AppError (Option (Uuid × DataSubjectRequest)) → Prop
  | .ok out => ∃ k row, out = some (k, row) ∧ Stands requester hash now k rows
  | .error e => e = keyConflict → Refused requester hash now fingerprint R

theorem checked_stable : (submitContract requester hash client).Stable t
    (Checked requester hash t now) := by
  rintro db db' ⟨none, guarded, expired⟩ ⟨stays, -⟩ -
  refine ⟨stays.requests.holdsNone none, guarded.imp (stays.users.held_iff).mpr fun absent =>
    (stays.people _).trans absent, fun j r here isFor => ?_⟩
  cases found : db.privacy.requests.committed j with
  | none =>
      rw [stays.quiet guarded found here] at isFor
      cases isFor
  | some q =>
      obtain ⟨s, last, same⟩ := stays.kept found
      cases here.symm.trans last
      rw [same.heldAt_eq]
      exact expired j q found ((same.isFor_eq _ _).symm.trans isFor)

theorem noRequests_stable : (submitContract requester hash client).Stable t
    fun db => Table.HoldsNone t db.privacy.requests :=
  fun _ _ none moved _ => moved.stays.requests.holdsNone none

theorem guarded_stable : (submitContract requester hash client).Stable t
    fun db => Guarded requester t db.users :=
  fun _ _ guarded moved _ => guarded.imp (moved.stays.users.held_iff).mpr fun absent =>
    (moved.stays.people _).trans absent

theorem stands_stable : (submitContract requester hash client).Stable t
    fun db => Stands requester hash now k (db.privacy.requests.view t) := by
  rintro db db' ⟨r, seen, isFor, held⟩ ⟨stays, -⟩ -
  by_cases mine : db.privacy.requests.holder k = some t
  · exact ⟨r, by rwa [Table.view, stays.requests.cell mine], isFor, held⟩
  · rw [Table.view_of_not_held mine] at seen
    obtain ⟨s, now', same⟩ := stays.kept seen
    refine ⟨s, ?_, by rwa [same.isFor_eq], by rwa [same.heldAt_eq]⟩
    rwa [Table.view_of_not_held (stays.requests.not_held mine)]

theorem Stands.kept {R R' : Table Uuid τ DataSubjectRequest}
    (kept : ∀ {k r}, R.committed k = some r → ∃ s, R'.committed k = some s ∧ SameSubmission r s)
    (h : Stands requester hash now k R.committed) : Stands requester hash now k R'.committed := by
  obtain ⟨r, here, isFor, held⟩ := h
  obtain ⟨s, last, same⟩ := kept here
  exact ⟨s, last, by rwa [same.isFor_eq], by rwa [same.heldAt_eq]⟩

theorem Refused.kept {R R' : Table Uuid τ DataSubjectRequest} {fingerprint : Option String}
    (kept : ∀ {k r}, R.committed k = some r → ∃ s, R'.committed k = some s ∧ SameSubmission r s)
    (h : Refused requester hash now fingerprint R) : Refused requester hash now fingerprint R' := by
  obtain ⟨j, r, here, isFor, held, differs⟩ := h
  obtain ⟨s, last, same⟩ := kept here
  exact ⟨j, s, last, by rwa [same.isFor_eq], by rwa [same.heldAt_eq], by rwa [same.fingerprint]⟩

theorem ended_stable {fingerprint : Option String}
    (r : Except AppError (Option (Uuid × DataSubjectRequest))) :
    (submitContract requester hash client).Stable t fun db =>
      SubmissionEnded requester hash now fingerprint (db.privacy.requests.view t) db.privacy.requests r := by
  intro db db' ended moved holds
  cases r with
  | ok out =>
      obtain ⟨j, row, is, stands⟩ := ended
      exact ⟨j, row, is, stands_stable db db' stands moved holds⟩
  | error e => exact fun is => (ended is).kept moved.stays.kept

/-- One statement of a transaction whose effect is known. -/
theorem wp_sql {A : UsersDb τ → Prop} {Q : Except AppError (Answer s) → UsersDb τ → Prop}
    (stable : (submitContract requester hash client).Stable t A) (open_ : s ≠ .commit)
    (shown : ∀ db, A db → SubmitNeeds requester hash client t s db)
    (effect : ∀ db r db', A db → Serialised requester hash client db.privacy.requests db.users →
      execUsers t s db = some (r, db') → Q r db')
    (start : A db) : wp (usersMachine τ) (submitContract requester hash client) t (sql s) Q db := by
  refine wp_stmt fun db' moved holds => ?_
  have here := stable db db' start moved holds
  refine ⟨shown db' here, fun r db'' permitted executed => ?_, nofun⟩
  obtain ⟨kept, promised⟩ := Terms.keeps (T := submitTerms requester hash client) holds permitted
    (shown db' here) executed open_
  exact ⟨kept, promised, effect db' r db'' here holds executed⟩

theorem intake_ne_keyConflict {call : SubmitCall} {e : AppError}
    (h : representativeIntakeValues call = .error e) : e ≠ keyConflict := by
  unfold representativeIntakeValues at h
  intro is
  subst is
  repeat' split at h
  all_goals cases h

/-- The lock of the requester's row. -/
theorem guarded_of_lock {r : Except AppError Unit}
    (h : Serialised requester hash client db.privacy.requests db.users)
    (executed : execUsers t (.lockRequester requester) db = some (r, db')) :
    r = .ok () ∧ Guarded requester t db'.users ∧ db'.privacy = db.privacy := by
  obtain ⟨⟨out, T⟩, locked, is⟩ := Option.map_eq_some_iff.mp executed
  cases is
  refine ⟨rfl, ?_, rfl⟩
  rcases Table.lockRow_cases locked with ⟨rfl, -, unseen⟩ | ⟨row, -, -, -, rfl, -⟩
  · rw [h.view_users] at unseen
    exact .inr (by simpa [Option.eq_none_iff_forall_ne_some] using unseen)
  · exact .inl (by simp)

/-- The lookup under the lock: it finds a request that stands, or all have expired. -/
theorem lookup_cases {r : Except AppError (Option (Uuid × DataSubjectRequest))}
    (none : Table.HoldsNone t db.privacy.requests) (guarded : Guarded requester t db.users)
    (executed : execUsers t (.requestByIdempotencyKey requester hash now) db = some (r, db')) :
    db' = db ∧ ((r = .ok .none ∧ Checked requester hash t now db) ∨
      ∃ k row, r = .ok (some (k, row)) ∧ db.privacy.requests.view t k = some row ∧
        row.isFor requester hash = true ∧ row.heldAt now = true) := by
  simp only [execUsers] at executed
  obtain ⟨⟨out, privacy⟩, found, is⟩ := Option.map_eq_some_iff.mp executed
  cases is
  cases found
  refine ⟨rfl, ?_⟩
  generalize rows : sortedRows t db.privacy.requests (fun r => r.requesterUserId == some requester &&
    r.idempotencyKeyHash == some hash && r.idempotencyKeyExpiresAt.any (now < ·))
    (fun a b => b.createdAt ≤ a.createdAt) = found
  cases found with
  | nil =>
      refine .inl ⟨rfl, none, guarded, fun j q here isFor => ?_⟩
      by_contra held
      have listed : (j, q) ∈ sortedRows t db.privacy.requests
          (fun r => r.requesterUserId == some requester && r.idempotencyKeyHash == some hash &&
            r.idempotencyKeyExpiresAt.any (now < ·)) (fun a b => b.createdAt ≤ a.createdAt) := by
        refine mem_sortedRows.mpr ⟨(none.view j).trans here, ?_⟩
        exact Bool.and_eq_true_iff.mpr ⟨isFor, by simpa [DataSubjectRequest.heldAt] using held⟩
      rw [rows] at listed
      cases listed
  | cons first rest =>
      obtain ⟨k, row⟩ := first
      have listed : (k, row) ∈ (k, row) :: rest := List.mem_cons_self
      rw [← rows] at listed
      obtain ⟨seen, meets⟩ := mem_sortedRows.mp listed
      obtain ⟨isFor, held⟩ := Bool.and_eq_true_iff.mp meets
      exact .inr ⟨k, row, rfl, seen, isFor, held⟩

variable {fingerprint : Option String}

/-- What the rest of the submission starts from, once the key has been looked up. -/
def LookedUp (requester : Uuid) (hash : String) (t : τ) (now : Time) (fingerprint : Option String)
    (db : UsersDb τ) : Except AppError (Option (Uuid × DataSubjectRequest)) → Prop
  | .ok (some row) => Stands requester hash now row.1 (db.privacy.requests.view t)
  | .ok none => Checked requester hash t now db
  | .error e => e = keyConflict → Refused requester hash now fingerprint db.privacy.requests

theorem wp_standingSubmission (keyed : call.idempotencyKeyHash = some hash)
    (none : Table.HoldsNone t db.privacy.requests) :
    wp (usersMachine τ) (submitContract call.requesterUserId hash client) t
      (standingSubmission call now)
      (fun r db => LookedUp call.requesterUserId hash t now call.idempotencyFingerprint db r) db := by
  rw [standingSubmission, keyed]
  apply wp_bind
  refine wp_sql (A := fun db => Table.HoldsNone t db.privacy.requests) noRequests_stable nofun
    (fun _ _ => trivial) ?_ none
  intro db r db' none holds executed
  obtain ⟨rfl, guarded, same⟩ := guarded_of_lock holds executed
  apply wp_bind
  refine wp_sql (A := fun db => Table.HoldsNone t db.privacy.requests ∧
    Guarded call.requesterUserId t db.users) (noRequests_stable.and guarded_stable) nofun
    (fun _ _ => trivial) ?_ ⟨same ▸ none, guarded⟩
  rintro db r db' ⟨none, guarded⟩ - executed
  obtain ⟨rfl, ⟨rfl, checked⟩ | ⟨k, row, rfl, seen, isFor, held⟩⟩ :=
    lookup_cases none guarded executed
  · exact checked
  · dsimp only
    split
    · exact ⟨row, seen, isFor, held⟩
    · rename_i differs
      refine fun _ => ⟨k, row, (none.view k).symm.trans seen, isFor, held, fun same => differs ?_⟩
      simp [SubmitCall.matchesFingerprint, same]

theorem insert_cases {id : Uuid} {request : DataSubjectRequest} {r : Except AppError Unit}
    (executed : execUsers t (.insertRequest id request) db = some (r, db')) :
    r = .error .integrityError ∨
      (r = .ok () ∧ db'.privacy.requests.view t id = some request) := by
  simp only [execUsers] at executed
  split at executed
  · obtain ⟨⟨out, privacy⟩, found, is⟩ := Option.map_eq_some_iff.mp executed
    cases is
    obtain ⟨⟨out', T⟩, inserted, is⟩ := Option.map_eq_some_iff.mp found
    cases is
    rcases Table.insert_cases inserted with ⟨-, rfl⟩ | ⟨-, -, rfl, rfl⟩
    · exact .inl rfl
    · exact .inr ⟨rfl, by simp⟩
  · cases executed
    exact .inl rfl

theorem wp_submitAt (safe : call.unsafeKey ≠ some keyConflict)
    (keyed : call.idempotencyKeyHash = some hash)
    (mine : client t = some (now, call.idempotencyFingerprint))
    (none : Table.HoldsNone t db.privacy.requests) :
    wp (usersMachine τ) (submitContract call.requesterUserId hash client) t (submitAt call now)
      (fun r db => SubmissionEnded call.requesterUserId hash now call.idempotencyFingerprint
        (db.privacy.requests.view t) db.privacy.requests r) db := by
  unfold submitAt
  apply wp_bind
  unfold raiseIf
  split
  · exact fun is => by cases is
  cases unsafeKey : call.unsafeKey with
  | some e => exact fun is => absurd (is ▸ unsafeKey) safe
  | none =>
      dsimp only
      cases intake : representativeIntakeValues call with
      | error e => exact fun is => absurd is (intake_ne_keyConflict intake)
      | ok values =>
          obtain ⟨subject, role, representativeStatus⟩ := values
          dsimp only
          apply wp_bind
          split
          · exact fun is => by cases is
          apply wp_bind
          refine wp_mono ?_ (wp_standingSubmission keyed none)
          intro r db looked
          cases r with
          | error e => exact looked
          | ok out =>
              cases out with
              | some row => exact ⟨row.1, row.2, rfl, looked⟩
              | none =>
                  -- nothing stands, so a new request is added
                  apply wp_bind
                  refine wp_sql checked_stable (by simp) (fun _ _ => trivial) ?_ looked
                  intro db r db' checked _ executed
                  cases executed
                  apply wp_bind
                  refine wp_sql checked_stable (by simp)
                    (fun db checked isFor => ⟨now, mine, checked⟩) ?_ checked
                  intro db' r db'' _ _ executed
                  rcases insert_cases executed with rfl | ⟨rfl, seen⟩
                  · exact fun is => by cases is
                  apply wp_bind
                  refine wp_sql stands_stable (by simp) (fun _ _ => trivial) ?_
                    (show Stands call.requesterUserId hash now call.newRequestId _ from
                      ⟨_, seen, ?_, ?_⟩)
                  · intro db r db' stands _ executed
                    cases executed
                    obtain ⟨row, seen, -⟩ := id stands
                    apply wp_bind
                    refine wp_sql stands_stable (by simp) (fun _ _ => trivial) ?_ stands
                    intro db r db' stands _ executed
                    cases executed
                    rw [seen]
                    exact ⟨_, row, rfl, stands⟩
                  · simp [DataSubjectRequest.isFor, SubmitCall.request, keyed]
                  · simp only [DataSubjectRequest.heldAt, SubmitCall.request, keyed, Option.map_some,
                      Option.any_some, idempotencyKeyTtl, decide_eq_true_eq]
                    exact Int.lt_add_of_pos_right now (by decide)

end Submit

/-! ## Clients -/

/-- Statements that leave the submissions for the key alone. -/
def Harmless (requester : Uuid) (hash : String) : Statement → Prop
  | .insertRequest _ request => request.isFor requester hash = false
  | .flushRequest _ loaded assigned => SameSubmission loaded assigned
  | .rollbackTo _ => False
  | _ => True

/-- A client that submits a request, or does something else. -/
inductive Client where
  | submission (s : Submission)
  | other (program : Tx (Option (Uuid × DataSubjectRequest)))

def Client.program (ops : SubmissionOps) : Client → Tx (Option (Uuid × DataSubjectRequest))
  | .submission s => s.program ops
  | .other program => program

/-- The client submits for `requester` with a key of this hash. -/
def Client.Submits (ops : SubmissionOps) (requester : Uuid) (hash : String) (s : Submission)
    (c : Client) : Prop :=
  c = .submission s ∧ s.requesterUserId = requester ∧ s.idempotencyKeyHash ops = some hash

/-- The clock value and the fingerprint of a client that submits with the key. -/
def Client.keyed (ops : SubmissionOps) (requester : Uuid) (hash : String) :
    Client → Option (Time × Option String)
  | .submission s =>
      if s.requesterUserId = requester ∧ s.idempotencyKeyHash ops = some hash then
        some (s.now, (s.call ops).idempotencyFingerprint)
      else none
  | .other _ => none

section Clients

variable {ops : SubmissionOps} {clients : τ → Client}

theorem Client.Submits.keyed {s : Submission} {c : Client} (h : c.Submits ops requester hash s) :
    c.keyed ops requester hash = some (s.now, (s.call ops).idempotencyFingerprint) := by
  obtain ⟨rfl, mine, key⟩ := h
  simp [Client.keyed, mine, key]

theorem Client.submits_of_keyed {c : Client} {now : Time} {fingerprint : Option String}
    (h : c.keyed ops requester hash = some (now, fingerprint)) :
    ∃ s, c.Submits ops requester hash s ∧ s.now = now ∧
      (s.call ops).idempotencyFingerprint = fingerprint := by
  cases c with
  | submission s =>
      simp only [Client.keyed] at h
      split at h
      · rename_i mine
        obtain ⟨clock, print⟩ := Prod.mk.inj (Option.some.inj h)
        exact ⟨s, ⟨rfl, mine⟩, clock, print⟩
      · cases h
  | other program => cases h

theorem Submission.call_fields (s : Submission) :
    (s.call ops).requesterUserId = s.requesterUserId ∧
      (s.call ops).idempotencyKeyHash = s.idempotencyKeyHash ops ∧
      (s.call ops).unsafeKey = ((s.normalisedKey ops).bind ops.unsafeKey).map .badRequest := by
  unfold Submission.call
  dsimp only
  split <;> exact ⟨rfl, rfl, rfl⟩

theorem Submission.call_safe (s : Submission) : (s.call ops).unsafeKey ≠ some keyConflict := by
  rw [s.call_fields.2.2]
  cases (s.normalisedKey ops).bind ops.unsafeKey <;> simp [keyConflict]

/-- The fingerprint is made from the requester, the payload, and the presence of a key. -/
theorem Submission.fingerprint_congr {s s' : Submission}
    (requester : s.requesterUserId = s'.requesterUserId) (payload : s.payload = s'.payload)
    (key : s.idempotencyKeyHash ops = s'.idempotencyKeyHash ops) :
    (s.call ops).idempotencyFingerprint = (s'.call ops).idempotencyFingerprint := by
  have values : representativeIntakeValues (s.intake ops) =
      representativeIntakeValues (s'.intake ops) := by
    simp [representativeIntakeValues, Submission.intake, requester, payload]
  have prints : ∀ subject role, s.fingerprints ops subject role = s'.fingerprints ops subject role := by
    simp [Submission.fingerprints, Submission.intake, payload]
  unfold Submission.call
  dsimp only
  rw [values, key]
  split
  · simp only [prints]
  · rfl

theorem needs_of_harmless (harmless : Harmless requester hash s) :
    SubmitNeeds requester hash client t s db := by
  cases s with
  | insertRequest id request =>
      intro isFor
      rw [show request.isFor requester hash = false from harmless] at isFor
      cases isFor
  | flushRequest | rollbackTo => exact harmless
  | _ => trivial

/-- A program that leaves the submissions for the key alone keeps the contract. -/
theorem wp_harmless {p : Tx (Option (Uuid × DataSubjectRequest))}
    (only : p.Only (Harmless requester hash)) :
    wp (usersMachine τ) (submitContract requester hash client) t p (fun _ _ => True) db :=
  wp_of_only (A := fun _ => True) (fun _ _ _ _ _ => trivial)
    (fun _ _ inside _ _ => needs_of_harmless inside)
    (fun _ _ _ _ inside _ holds _ executed =>
      have ⟨kept, moved⟩ := (execUsers_case executed).keeps holds (needs_of_harmless inside)
      ⟨kept, ⟨moved, trivial⟩, trivial⟩) only trivial

theorem only_submitAt {call : SubmitCall} {now : Time}
    (other : call.requesterUserId ≠ requester ∨ call.idempotencyKeyHash ≠ some hash) :
    (submitAt call now).Only (Harmless requester hash) := by
  have standing : (standingSubmission call now).Only (Harmless requester hash) := by
    unfold standingSubmission
    split
    · exact only_pure _
    · refine only_bind (only_stmt.mpr trivial) fun _ => only_bind (only_stmt.mpr trivial) fun row => ?_
      split
      · exact only_pure _
      · split
        · exact only_pure _
        · exact only_raise _
  refine only_bind only_raiseIf fun _ => ?_
  split
  · exact only_raise _
  split
  · exact only_raise _
  refine only_bind only_raiseIf fun _ => only_bind standing fun existing => ?_
  split
  · exact only_pure _
  · refine only_bind (only_stmt.mpr trivial) fun createdAt => ?_
    refine only_bind (only_stmt.mpr ?_) fun _ => ?_
    · rcases other with other | other <;>
        simp [Harmless, DataSubjectRequest.isFor, SubmitCall.request, other]
    · exact only_bind (only_stmt.mpr trivial) fun _ =>
        only_bind (only_stmt.mpr trivial) fun _ => only_pure _

/-- The post-condition of a client: a submission with the key ends as above. -/
def ClientEnded (ops : SubmissionOps) (requester : Uuid) (hash : String) (c : Client)
    (r : Except AppError (Option (Uuid × DataSubjectRequest))) (db : UsersDb τ) : Prop :=
  ∀ s, c.Submits ops requester hash s →
    SubmissionEnded requester hash s.now (s.call ops).idempotencyFingerprint db.privacy.requests.committed
      db.privacy.requests r

theorem Client.wp_program
    (others : ∀ t p, clients t = .other p → p.Only (Harmless requester hash))
    (none : Table.HoldsNone t db.privacy.requests) :
    wp (usersMachine τ)
      (submitContract requester hash fun t => (clients t).keyed ops requester hash) t
      ((clients t).program ops) (ClientEnded ops requester hash (clients t)) db := by
  cases is : clients t with
  | other p =>
      refine wp_mono (fun _ _ _ s submits => ?_) (wp_harmless (others t p is))
      cases submits.1
  | submission s =>
      obtain ⟨mine, key, -⟩ : (s.call ops).requesterUserId = s.requesterUserId ∧
        (s.call ops).idempotencyKeyHash = s.idempotencyKeyHash ops ∧ _ := s.call_fields
      by_cases keyed : s.requesterUserId = requester ∧ s.idempotencyKeyHash ops = some hash
      · obtain ⟨rfl, hashed⟩ := keyed
        have submits : (clients t).Submits ops s.requesterUserId hash s := ⟨is, rfl, hashed⟩
        have body : wp (usersMachine τ) (submitContract (s.call ops).requesterUserId hash
            fun t => (clients t).keyed ops s.requesterUserId hash) t (submitAt (s.call ops) s.now) _ db :=
          wp_submitAt s.call_safe (key.trans hashed) submits.keyed none
        rw [mine] at body
        refine Terms.wp_block_raising ended_stable (fun _ _ _ _ => trivial) nofun ?_ ?_ body
        · rintro out db r db' ⟨k, row, made, stands⟩ _ executed
          cases executed
          refine ⟨⟨(), rfl⟩, trivial, fun s' other => ?_⟩
          cases other.1
          refine ⟨k, row, made, ?_⟩
          simpa [Stands, Db.commit] using stands
        · intro e db r db' ended _ executed
          cases executed
          intro s' other
          cases other.1
          exact fun conflict => by simpa [Refused, Db.rollback] using ended conflict
      · refine wp_mono (fun _ _ _ s' submits => ?_) (wp_harmless (only_transaction ?_ ?_))
        · obtain ⟨same, holds⟩ := submits
          cases same
          exact absurd holds keyed
        · apply only_submitAt
          rw [mine, key]
          exact not_and_or.mp keyed
        · exact ⟨trivial, trivial⟩

end Clients

/-! ## Runs -/

/-- Clients about to begin, on a database where nothing is locked; those that submit nothing
    leave the submissions for the key alone. -/
structure SubmitStart (ops : SubmissionOps) (requester : Uuid) (hash : String)
    (clients : τ → Client)
    (c : Config τ Statement Answer AppError (UsersDb τ) (Option (Uuid × DataSubjectRequest))) :
    Prop where
  noRequests : ∀ k, c.db.privacy.requests.holder k = none
  noUsers : ∀ k, c.db.users.holder k = none
  programs : ∀ t, c.run t = some ((clients t).program ops)
  others : ∀ t p, clients t = .other p → p.Only (Harmless requester hash)

/-- Row `k` is a request for the key that was committed since `start`. -/
def Created (requester : Uuid) (hash : String)
    (start c : Config τ Statement Answer AppError (UsersDb τ) (Option (Uuid × DataSubjectRequest)))
    (k : Uuid) (r : DataSubjectRequest) : Prop :=
  start.db.privacy.requests.committed k = none ∧ c.db.privacy.requests.committed k = some r ∧
    r.isFor requester hash = true

section Runs

variable {ops : SubmissionOps} {clients : τ → Client}
  {start b c d : Config τ Statement Answer AppError (UsersDb τ) (Option (Uuid × DataSubjectRequest))}
  {k : Uuid} {r : DataSubjectRequest}

theorem SubmitStart.wp (h : SubmitStart ops requester hash clients start) (t : τ) :
    Isolation.wp (usersMachine τ)
      (submitContract requester hash fun t => (clients t).keyed ops requester hash) t
      ((clients t).program ops) (ClientEnded ops requester hash (clients t)) start.db :=
  Client.wp_program h.others fun k held => by simp [h.noRequests k] at held

theorem SubmitStart.safe (h : SubmitStart ops requester hash clients start) :
    Contract.Sound.Safe (usersMachine τ)
      (submitContract requester hash fun t => (clients t).keyed ops requester hash)
      (fun t => ClientEnded ops requester hash (clients t)) start := by
  refine ⟨⟨?_, fun {k t} held => ?_, fun {t k r} new => ?_, fun {t u k k' r r'} new => ?_⟩,
    fun t s k running => ?_⟩
  · intro k t r held
    simp [h.noRequests k] at held
  · simp [h.noUsers k] at held
  · exact absurd new.held (by simp [h.noRequests k])
  · exact absurd new.held (by simp [h.noRequests k])
  · rw [← Option.some.inj ((h.programs t).symm.trans running)]
    exact h.wp t

/-- How the submissions that have ended by `d` have ended. -/
theorem SubmitStart.ended (h : SubmitStart ops requester hash clients start)
    (run : (usersMachine τ).Reaches (fun _ _ _ => True) start d) (t : τ)
    (r : Except AppError (Option (Uuid × DataSubjectRequest))) (ended : d.result t = some r) :
    ClientEnded ops requester hash (clients t) r d.db := by
  have keeps : ∀ {db db' : UsersDb τ} {c : Client}
      {r : Except AppError (Option (Uuid × DataSubjectRequest))},
      (∀ {k r}, db.privacy.requests.committed k = some r →
        ∃ s, db'.privacy.requests.committed k = some s ∧ SameSubmission r s) →
      ClientEnded ops requester hash c r db → ClientEnded ops requester hash c r db' := by
    intro db db' c r kept ended s submits
    cases r with
    | ok out =>
        obtain ⟨j, row, is, stands⟩ := ended s submits
        exact ⟨j, row, is, stands.kept kept⟩
    | error e => exact fun is => (ended s submits is).kept kept
  refine (submitTerms requester hash fun t => (clients t).keyed ops requester hash).sound.results
    (Q := fun t => ClientEnded ops requester hash (clients t))
    (fun held promised => keeps promised.1.history.kept held) ?_ ?_ h.safe run t r ended
  · rintro t r db db' held ⟨clock, rfl⟩
    exact held
  · intro t r ended
    have is := Option.some.inj ((h.programs t).symm.trans (Config.run_of_result ended))
    have done := h.wp t
    rwa [is] at done

theorem SubmitStart.history (h : SubmitStart ops requester hash clients start)
    (run : (usersMachine τ).Reaches (fun _ _ _ => True) start c)
    (more : (usersMachine τ).Reaches (fun _ _ _ => True) c d) :
    KeyHistory requester hash (fun t => (clients t).keyed ops requester hash)
      c.db.privacy.requests d.db.privacy.requests := by
  have sound := (submitTerms requester hash fun t => (clients t).keyed ops requester hash).sound
  refine sound.reaches_rel (P := fun db db' => KeyHistory requester hash
    (fun t => (clients t).keyed ops requester hash) db.privacy.requests db'.privacy.requests)
    (fun db => .of_same fun _ => rfl) KeyHistory.trans (fun promised => promised.1.history) ?_
    (sound.invariant h.safe run) more
  rintro db db' - ⟨clock, rfl⟩
  exact .of_same fun _ => rfl

/-- Nothing is created for the key after the first request, if no submission has a clock value
    at which that one has expired. -/
theorem SubmitStart.created_eq (h : SubmitStart ops requester hash clients start)
    (before : (usersMachine τ).Reaches (fun _ _ _ => True) start b)
    (step : (usersMachine τ).Step (fun _ _ _ => True) b c)
    (after : (usersMachine τ).Reaches (fun _ _ _ => True) c d)
    (none : ∀ j q, ¬Created requester hash start b j q)
    (first : Created requester hash start c k r)
    (period : ∀ t s, (clients t).Submits ops requester hash s → r.heldAt s.now = true)
    {j : Uuid} {q : DataSubjectRequest} (created : Created requester hash start d j q) : j = k := by
  have run := before.tail step
  -- what `c` has created was not there in `b`
  have absent : ∀ {i p}, Created requester hash start c i p →
      b.db.privacy.requests.committed i = .none := by
    intro i p made
    cases found : b.db.privacy.requests.committed i with
    | none => rfl
    | some p' =>
        obtain ⟨p'', now, same⟩ := (h.history before (.single step)).kept found
        cases now.symm.trans made.2.1
        exact absurd ⟨made.1, found, (same.isFor_eq _ _).symm.trans made.2.2⟩ (none i p')
  obtain ⟨fresh, here, isFor⟩ := created
  cases found : c.db.privacy.requests.committed j with
  | none =>
      obtain ⟨u, now, mine, expired⟩ := (h.history run after).added found here isFor
      obtain ⟨s, submits, rfl, -⟩ := Client.submits_of_keyed mine
      have gone := expired k r first.2.1 first.2.2
      rw [period u s submits] at gone
      cases gone
  | some q' =>
      obtain ⟨q'', last, same⟩ := (h.history run after).kept found
      cases here.symm.trans last
      have made : Created requester hash start c j q' :=
        ⟨fresh, found, (same.isFor_eq _ _).symm.trans isFor⟩
      have sound := (submitTerms requester hash fun t => (clients t).keyed ops requester hash).sound
      rcases sound.guarantee (sound.invariant h.safe before) step with
        ⟨u, promised, -⟩ | ⟨clock, moved⟩ | unmoved
      · exact promised.single (absent made) made.2.1 made.2.2 (absent first) first.2.1 first.2.2
      · have same : b.db.privacy.requests.committed j = c.db.privacy.requests.committed j := by
          rw [moved]
        cases (absent made).symm.trans (same.trans found)
      · rw [unmoved] at found
        cases (absent made).symm.trans found

/-- Nothing is created for the key once one request is, as long as no submission has a clock
    value at which it has expired, and whatever submission returns then, returns that request.
    Submissions of one payload are never refused for the key, and a submission is only ever
    refused for a request that has not expired at its clock value. -/
theorem submission_idempotent (h : SubmitStart ops requester hash clients start)
    (run : (usersMachine τ).Reaches (fun _ _ _ => True) start d) :
    ((∀ t s, (clients t).Submits ops requester hash s →
        Expired requester hash start.db.privacy.requests s.now) →
      (∀ b c k r, (usersMachine τ).Reaches (fun _ _ _ => True) start b →
        (usersMachine τ).Step (fun _ _ _ => True) b c →
        (usersMachine τ).Reaches (fun _ _ _ => True) c d →
        (∀ j q, ¬Created requester hash start b j q) → Created requester hash start c k r →
        (∀ t s, (clients t).Submits ops requester hash s → r.heldAt s.now = true) →
        (∀ j q, Created requester hash start d j q → j = k) ∧
          ∀ t s, (clients t).Submits ops requester hash s → ∀ out, d.result t = some (.ok out) →
            ∃ row, out = some (k, row)) ∧
      ((∀ t u s s', (clients t).Submits ops requester hash s →
          (clients u).Submits ops requester hash s' → s.payload = s'.payload) →
        ∀ t s, (clients t).Submits ops requester hash s →
          d.result t ≠ some (.error keyConflict))) ∧
    ∀ t s, (clients t).Submits ops requester hash s → d.result t = some (.error keyConflict) →
      Refused requester hash s.now (s.call ops).idempotencyFingerprint d.db.privacy.requests := by
  have refused : ∀ t s, (clients t).Submits ops requester hash s →
      d.result t = some (.error keyConflict) →
      Refused requester hash s.now (s.call ops).idempotencyFingerprint d.db.privacy.requests :=
    fun t s submits ended => h.ended run t _ ended s submits rfl
  -- a request that stands at the clock value of a submission was created in the run
  have created : (∀ t s, (clients t).Submits ops requester hash s →
        Expired requester hash start.db.privacy.requests s.now) →
      ∀ {t s j q}, (clients t).Submits ops requester hash s →
        d.db.privacy.requests.committed j = some q → q.isFor requester hash = true →
        q.heldAt s.now = true → Created requester hash start d j q := by
    intro fresh t s j q submits here isFor held
    refine ⟨?_, here, isFor⟩
    cases found : start.db.privacy.requests.committed j with
    | none => rfl
    | some p =>
        obtain ⟨q', last, same⟩ := (h.history .refl run).kept found
        cases here.symm.trans last
        have gone := fresh t s submits j p found ((same.isFor_eq _ _).symm.trans isFor)
        rw [← same.heldAt_eq, held] at gone
        cases gone
  refine ⟨fun fresh => ⟨?_, ?_⟩, refused⟩
  · intro b c k r before step after none first period
    refine ⟨fun j q => h.created_eq before step after none first period, ?_⟩
    intro t s submits out ended
    obtain ⟨j, row, is, q, here, isFor, held⟩ := h.ended run t _ ended s submits
    have same := h.created_eq before step after none first period
      (created fresh submits here isFor held)
    exact ⟨row, same ▸ is⟩
  · intro payloads t s submits ended
    obtain ⟨j, q, here, isFor, held, differs⟩ := refused t s submits ended
    obtain ⟨absent, -, -⟩ := created fresh submits here isFor held
    obtain ⟨u, now, mine, -⟩ := (h.history .refl run).added absent here isFor
    obtain ⟨s', other, -, print⟩ := Client.submits_of_keyed mine
    apply differs
    rw [← print]
    exact Submission.fingerprint_congr (other.2.1.trans submits.2.1.symm)
      (payloads u t s' s other submits) (other.2.2.trans submits.2.2.symm)

end Runs

/-! ## Two submissions at once -/

def exampleOps : SubmissionOps where
  toTextOps := { plainText with sha256 := fun _ => "digest" }
  uuidText _ := "id"
  unsafeKey _ := none

/-- User 7 asks for access, with a key. -/
def exampleSubmission (newRequestId : Uuid) (now : Time) : Submission where
  newRequestId
  requesterUserId := 7
  payload := ⟨.access, none, none, .self, none, none⟩
  idempotencyKey := some "first attempt"
  subjectExists := true
  now

def exampleClients : Bool → Client
  | true => .submission (exampleSubmission 1 100)
  | false => .submission (exampleSubmission 2 40)

def submitExampleStart :
    Config Bool Statement Answer AppError (UsersDb Bool) (Option (Uuid × DataSubjectRequest)) :=
  ⟨⟨⟨.ofRows [], .ofRows [], .ofRows [], fun _ => none, 100⟩, .ofRows [(7, ())]⟩,
    fun t => some ((exampleClients t).program exampleOps)⟩

theorem submitExampleStart_start :
    SubmitStart exampleOps 7 "digest" exampleClients submitExampleStart where
  noRequests := Table.holder_ofRows _
  noUsers := Table.holder_ofRows _
  programs _ := rfl
  others t p is := by cases t <;> cases is

/-- The ids of the committed requests, what the first one is held for, and whether the second
    client has returned. -/
def submitted
    (c : Config Bool Statement Answer AppError (UsersDb Bool) (Option (Uuid × DataSubjectRequest))) :
    List Uuid × Option (Bool × Option Time) × Option Bool :=
  (c.db.privacy.requests.keys.filter fun k => (c.db.privacy.requests.committed k).isSome,
    (c.db.privacy.requests.committed 1).map fun r => (r.isFor 7 "digest", r.idempotencyKeyExpiresAt),
    (c.result false).map fun r => match r with
      | .ok _ => true
      | .error _ => false)

/-- The second client, with a clock value from before the first one's, returns the request of
    the first. -/
theorem submission_idempotent_example :
    ∃ d, (usersMachine Bool).Reaches (fun _ _ _ => True) submitExampleStart d ∧
      (submitted d).1 = [1] ∧ ∃ row, d.result false = some (.ok (some (1, row))) := by
  have played : ((usersMachine Bool).play (fun _ _ _ => true)
      [true, true, true, true, true, true] submitExampleStart).map (fun b =>
        (submitted b, ((usersMachine Bool).next (fun _ _ _ => true) true b).map fun c =>
          (submitted c, ((usersMachine Bool).play (fun _ _ _ => true) [false, false, false] c).map
            submitted))) =
      some (([], none, none), some (([1], some (true, some 86500), none),
        some ([1], some (true, some 86500), some true))) := by rfl
  have checked : ∀ (t : Bool) (s : Statement) (db : UsersDb Bool), true = true → True :=
    fun _ _ _ _ => trivial
  obtain ⟨b, before, seen⟩ := Machine.run_of_play checked played
  obtain ⟨atB, further⟩ := Prod.mk.inj seen
  obtain ⟨c, next, seen⟩ := Option.map_eq_some_iff.mp further
  obtain ⟨atC, last⟩ := Prod.mk.inj seen
  obtain ⟨d, after, atD⟩ := Machine.run_of_play checked last
  have step := Machine.next_step checked next
  have run := (before.tail step).trans after
  obtain ⟨idsB, -⟩ := Prod.mk.inj atB
  obtain ⟨-, seenC⟩ := Prod.mk.inj atC
  obtain ⟨first, -⟩ := Prod.mk.inj seenC
  obtain ⟨ids, seenD⟩ := Prod.mk.inj atD
  obtain ⟨-, ended⟩ := Prod.mk.inj seenD
  refine ⟨d, run, ids, ?_⟩
  obtain ⟨r, here, columns⟩ := Option.map_eq_some_iff.mp first
  obtain ⟨isFor, expires⟩ := Prod.mk.inj columns
  obtain ⟨result, returned, fine⟩ := Option.map_eq_some_iff.mp ended
  cases result with
  | error e => cases fine
  | ok out =>
      have fresh : ∀ t s, (exampleClients t).Submits exampleOps 7 "digest" s →
          Expired 7 "digest" submitExampleStart.db.privacy.requests s.now :=
        fun _ _ _ _ _ found => by cases found
      have none : ∀ j q, ¬Created 7 "digest" submitExampleStart b j q := by
        intro j q created
        have listed : j ∈ b.db.privacy.requests.keys.filter fun k =>
            (b.db.privacy.requests.committed k).isSome := by
          simp [Table.mem_keys_of_committed created.2.1, created.2.1]
        rw [show b.db.privacy.requests.keys.filter (fun k =>
          (b.db.privacy.requests.committed k).isSome) = [] from idsB] at listed
        cases listed
      have period : ∀ t s, (exampleClients t).Submits exampleOps 7 "digest" s →
          r.heldAt s.now = true := by
        intro t s submits
        rw [DataSubjectRequest.heldAt, expires]
        cases t <;> cases submits.1 <;> decide
      obtain ⟨firsts, -⟩ := (submission_idempotent submitExampleStart_start run).1 fresh
      obtain ⟨-, returns⟩ := firsts b c 1 r before step after none ⟨rfl, here, isFor⟩ period
      obtain ⟨row, is⟩ := returns false (exampleSubmission 2 40) ⟨rfl, rfl, rfl⟩ out returned
      exact ⟨row, is ▸ returned⟩

end SaasTemplate.Privacy
