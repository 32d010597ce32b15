import SaasTemplate.Isolation.RowVersions
import SaasTemplate.Privacy.Submission

/-! # One request for one key

A request for an idempotency key is inserted by a client that holds the row lock of the
requester and has seen, under it, that every committed request for the key has expired at
its clock value. The lock is kept until the insert is committed, so this is still true then.
-/

set_option linter.unusedSectionVars false

namespace SaasTemplate.Privacy

open SaasTemplate.Isolation SaasTemplate.Isolation.Prog

namespace DataSubjectRequest

/-- A request that `requester` has submitted with a key of this hash. -/
def isFor (requester : Uuid) (hash : String) (r : DataSubjectRequest) : Bool :=
  r.requesterUserId == some requester && r.idempotencyKeyHash == some hash

/-- `idempotency_key_expires_at > now`. -/
def heldAt (now : Time) (r : DataSubjectRequest) : Bool := r.idempotencyKeyExpiresAt.any (now < ·)

end DataSubjectRequest

/-- Two versions of a request that agree in who submitted it with which key. -/
structure SameSubmission (r s : DataSubjectRequest) : Prop where
  requester : s.requesterUserId = r.requesterUserId
  hash : s.idempotencyKeyHash = r.idempotencyKeyHash
  fingerprint : s.idempotencyFingerprint = r.idempotencyFingerprint
  expires : s.idempotencyKeyExpiresAt = r.idempotencyKeyExpiresAt

namespace SameSubmission

variable {r s u : DataSubjectRequest}

theorem refl (r : DataSubjectRequest) : SameSubmission r r := ⟨rfl, rfl, rfl, rfl⟩

theorem trans (first : SameSubmission r s) (second : SameSubmission s u) : SameSubmission r u :=
  ⟨second.requester.trans first.requester, second.hash.trans first.hash,
    second.fingerprint.trans first.fingerprint, second.expires.trans first.expires⟩

theorem isFor_eq (h : SameSubmission r s) (requester : Uuid) (hash : String) :
    s.isFor requester hash = r.isFor requester hash := by
  simp [DataSubjectRequest.isFor, h.requester, h.hash]

theorem heldAt_eq (h : SameSubmission r s) (now : Time) : s.heldAt now = r.heldAt now := by
  simp [DataSubjectRequest.heldAt, h.expires]

/-- A flush that does not change these columns. -/
theorem flush {loaded assigned : DataSubjectRequest} (h : SameSubmission loaded assigned)
    (current : DataSubjectRequest) : SameSubmission current (loaded.flush assigned current) := by
  constructor <;> simp [DataSubjectRequest.flush, h.requester, h.hash, h.fingerprint, h.expires]

end SameSubmission

variable {τ : Type} [DecidableEq τ] {t u : τ} {s : Statement} {db db' : UsersDb τ}
  {requester : Uuid} {hash : String} {client : τ → Option (Time × Option String)}

/-! ## The effect of a statement -/

inductive UsersCase (t : τ) (s : Statement) (db : UsersDb τ) : UsersDb τ → Prop where
  | lockUser (id : Uuid) (row : Unit) : s ≠ .commit → db.users.view t id = some row →
      db.users.free t id = true →
      UsersCase t s db { db with users := db.users.put t id (some row) }
  | privacy (next : Db τ) : Case t s db.privacy next → s ≠ .commit → s ≠ .rollback →
      (∀ id request, s = .insertRequest id request →
        next = db.privacy ∨ db.knows t request = true) →
      UsersCase t s db { db with privacy := next }
  | commit : s = .commit → UsersCase t s db ⟨db.privacy.commit t, db.users.commit t⟩
  | rollback : s = .rollback → UsersCase t s db ⟨db.privacy.rollback t, db.users.rollback t⟩

theorem UsersCase.of_exec {r : Except AppError (Answer s)} {next : UsersDb τ}
    (h : (exec t s db.privacy).map (fun out => (out.1, { db with privacy := out.2 })) =
      some (r, next)) (open_ : s ≠ .commit) (noRollback : s ≠ .rollback)
    (known : ∀ id request, s = .insertRequest id request → db.knows t request = true) :
    UsersCase t s db next := by
  obtain ⟨⟨out, privacy⟩, executed, is⟩ := Option.map_eq_some_iff.mp h
  cases is
  exact .privacy privacy (exec_case executed) open_ noRollback fun id request is =>
    .inr (known id request is)

theorem execUsers_case {r : Except AppError (Answer s)} (h : execUsers t s db = some (r, db')) :
    UsersCase t s db db' := by
  cases s with
  | lockRequester id =>
      obtain ⟨⟨out, T⟩, locked, is⟩ := Option.map_eq_some_iff.mp h
      cases is
      rcases Table.lockRow_cases locked with ⟨rfl, -⟩ | ⟨row, seen, -, free, rfl, -⟩
      · exact .privacy db.privacy (.quiet nofun) nofun nofun fun _ _ is => by cases is
      · exact .lockUser id row nofun seen free
  | insertRequest id request =>
      simp only [execUsers] at h
      split at h
      · rename_i known
        refine .of_exec h nofun nofun fun id' request' is => ?_
        cases is
        exact known
      · cases h
        exact .privacy db.privacy (.quiet nofun) nofun nofun fun _ _ _ => .inl rfl
  | commit =>
      cases h
      exact .commit rfl
  | rollback =>
      cases h
      exact .rollback rfl
  | _ => exact .of_exec h nofun nofun fun _ _ is => by cases is

/-! ## What is kept -/

section Serialised

variable {R R' : Table Uuid τ DataSubjectRequest} {P P' : Table Uuid τ Unit} {k k' : Uuid}
  {r row next : DataSubjectRequest} {fingerprint : Option String}

/-- A request for the key that `t` is about to add. -/
structure New (requester : Uuid) (hash : String) (R : Table Uuid τ DataSubjectRequest) (t : τ)
    (k : Uuid) (r : DataSubjectRequest) : Prop where
  absent : R.committed k = none
  held : R.holder k = some t
  row : R.pending k = some r
  isFor : r.isFor requester hash = true

/-- Every committed request for the key has expired at `now`. -/
def Expired (requester : Uuid) (hash : String) (R : Table Uuid τ DataSubjectRequest) (now : Time) :
    Prop :=
  ∀ k r, R.committed k = some r → r.isFor requester hash = true → r.heldAt now = false

/-- `t` may add a request with this fingerprint for the key: it holds the row of the
    requester, and all others have expired at its clock value. -/
structure MayAdd (requester : Uuid) (hash : String) (client : τ → Option (Time × Option String))
    (R : Table Uuid τ DataSubjectRequest) (P : Table Uuid τ Unit) (t : τ)
    (fingerprint : Option String) : Prop where
  lock : P.holder requester = some t
  expired : ∃ now, client t = some (now, fingerprint) ∧ Expired requester hash R now

structure Serialised (requester : Uuid) (hash : String)
    (client : τ → Option (Time × Option String)) (R : Table Uuid τ DataSubjectRequest)
    (P : Table Uuid τ Unit) : Prop where
  prepared : R.Prepared fun _ => SameSubmission
  /-- Rows of users are only locked. -/
  users : ∀ {k t}, P.holder k = some t → P.committed k = some () ∧ P.pending k = some ()
  added : ∀ {t k r}, New requester hash R t k r →
    MayAdd requester hash client R P t r.idempotencyFingerprint
  single : ∀ {t u k k' r r'}, New requester hash R t k r → New requester hash R u k' r' → k = k'

theorem Serialised.same (h : Serialised requester hash client R P) {r s : DataSubjectRequest}
    (here : R.committed k = some r) (seen : R.view t k = some s) : SameSubmission r s :=
  h.prepared.rel_of_view .refl here seen

theorem Serialised.view_users (h : Serialised requester hash client R P) (t : τ) (k : Uuid) :
    P.view t k = P.committed k := by
  by_cases held : P.holder k = some t
  · rw [Table.view_of_held held, (h.users held).1, (h.users held).2]
  · exact Table.view_of_not_held held

theorem New.of_seen (absent : R.committed k = none) (seen : R.view t k = some r)
    (isFor : r.isFor requester hash = true) : New requester hash R t k r := by
  have held : R.holder k = some t := by
    by_contra other
    rw [Table.view_of_not_held other, absent] at seen
    cases seen
  exact ⟨absent, held, by rwa [← Table.view_of_held held], isFor⟩

theorem New.of_put (h : New requester hash (R.put t k (some next)) u k' r)
    (seen : R.view t k = some row) (same : SameSubmission row next) :
    ∃ r', New requester hash R u k' r' ∧ SameSubmission r' r := by
  obtain ⟨absent, held, pending, isFor⟩ := h
  rw [Table.committed_put] at absent
  by_cases here : k' = k
  · subst here
    simp only [Table.holder_put_same, Option.some.injEq] at held
    simp only [Table.pending_put_same, Option.some.injEq] at pending
    subst held pending
    exact ⟨row, .of_seen absent seen ((same.isFor_eq _ _).symm.trans isFor), same⟩
  · rw [Table.holder_put_other here] at held
    rw [Table.pending_put_other here] at pending
    exact ⟨r, ⟨absent, held, pending, isFor⟩, .refl r⟩

/-- A write to a request that leaves its submission as it is. -/
theorem Serialised.put (h : Serialised requester hash client R P) (seen : R.view t k = some row)
    (same : SameSubmission row next) :
    Serialised requester hash client (R.put t k (some next)) P where
  prepared := h.prepared.put fun _ here => (h.same here seen).trans same
  users := h.users
  added new := by
    obtain ⟨r', before, as⟩ := new.of_put seen same
    obtain ⟨lock, now, mine, expired⟩ := h.added before
    exact ⟨lock, now, by rwa [as.fingerprint], fun j q here => expired j q (by simpa using here)⟩
  single first second := by
    obtain ⟨r, before, -⟩ := first.of_put seen same
    obtain ⟨r', before', -⟩ := second.of_put seen same
    exact h.single before before'

/-- A new request, for this key or another. -/
theorem Serialised.add (h : Serialised requester hash client R P) (unseen : R.view t k = none)
    (may : next.isFor requester hash = true → Table.HoldsNone t R ∧
      MayAdd requester hash client R P t next.idempotencyFingerprint) :
    Serialised requester hash client (R.put t k (some next)) P := by
  have old : ∀ {u j r}, New requester hash (R.put t k (some next)) u j r →
      New requester hash R u j r ∨ j = k ∧ u = t ∧ r = next := by
    rintro u j r ⟨absent, held, pending, isFor⟩
    by_cases here : j = k
    · subst here
      simp only [Table.holder_put_same, Option.some.injEq] at held
      simp only [Table.pending_put_same, Option.some.injEq] at pending
      exact .inr ⟨rfl, held.symm, pending.symm⟩
    · rw [Table.holder_put_other here] at held
      rw [Table.pending_put_other here] at pending
      exact .inl ⟨by simpa using absent, held, pending, isFor⟩
  -- another new request would be of the client that holds the requester, which has none
  have alone : next.isFor requester hash = true → ∀ {u j r}, ¬New requester hash R u j r := by
    intro isFor u j r before
    obtain ⟨none, lock, -⟩ := may isFor
    obtain rfl : t = u := Option.some.inj (lock.symm.trans (h.added before).lock)
    exact none j before.held
  refine ⟨h.prepared.put fun r here => ?_, h.users, fun {u j r} new => ?_, ?_⟩
  · obtain ⟨s, seen, -⟩ := h.prepared.view here t
    cases unseen.symm.trans seen
  · rcases old new with before | ⟨rfl, rfl, rfl⟩
    · obtain ⟨lock, now, mine, expired⟩ := h.added before
      exact ⟨lock, now, mine, fun i q here => expired i q (by simpa using here)⟩
    · obtain ⟨-, lock, now, mine, expired⟩ := may new.isFor
      exact ⟨lock, now, mine, fun i q here => expired i q (by simpa using here)⟩
  · intro u v j j' r r' first second
    rcases old first with before | ⟨rfl, rfl, rfl⟩ <;> rcases old second with before' | ⟨rfl, rfl, rfl⟩
    · exact h.single before before'
    · exact absurd before (alone second.isFor)
    · exact absurd before' (alone first.isFor)
    · rfl

theorem Serialised.lockUser (h : Serialised requester hash client R P) {id : Uuid}
    (seen : P.view t id = some ()) (free : P.free t id = true) :
    Serialised requester hash client R (P.put t id (some ())) := by
  refine ⟨h.prepared, fun {j u} held => ?_, fun {u j r} new => ?_, h.single⟩
  · by_cases here : j = id
    · subst here
      exact ⟨by rw [Table.committed_put, ← h.view_users t, seen], by simp⟩
    · rw [Table.holder_put_other here] at held
      rw [Table.committed_put, Table.pending_put_other here]
      exact h.users held
  · obtain ⟨lock, expired⟩ := h.added new
    refine ⟨?_, expired⟩
    by_cases here : requester = id
    · subst here
      rcases Table.holder_of_free free with none | mine
      · simp [none] at lock
      · rw [Table.holder_put_same, ← mine, lock]
    · rwa [Table.holder_put_other here]

/-- A request added within one transaction stays so where only other cells change. -/
theorem New.of_cell {R' : Table Uuid τ DataSubjectRequest} (h : New requester hash R' u k r)
    (same : R'.cell k = R.cell k) (held : R.holder k = some u) : New requester hash R u k r :=
  ⟨by rw [← Table.committed_of_cell same, h.absent], held,
    by rw [← Table.pending_of_cell same, h.row], h.isFor⟩

theorem New.of_commit (h : New requester hash (R.commit t) u k r) :
    New requester hash R u k r ∧ u ≠ t := by
  obtain ⟨held, other⟩ := Table.holder_commit_eq_some h.held
  exact ⟨h.of_cell (Table.cell_commit_other h.held) held, fun is => other (is ▸ held)⟩

theorem New.of_rollback (h : New requester hash (R.rollback t) u k r) :
    New requester hash R u k r ∧ u ≠ t := by
  obtain ⟨held, other⟩ := Table.holder_rollback_eq_some h.held
  exact ⟨h.of_cell (Table.cell_rollback_other h.held) held, fun is => other (is ▸ held)⟩

theorem Serialised.commit (h : Serialised requester hash client R P) (t : τ) :
    Serialised requester hash client (R.commit t) (P.commit t) := by
  refine ⟨h.prepared.commit t, fun {j u} held => ?_, fun {u j r} new => ?_, ?_⟩
  · have same := Table.cell_commit_other held
    rw [Table.committed_of_cell same, Table.pending_of_cell same]
    exact h.users (Table.holder_commit_eq_some held).1
  · obtain ⟨before, other⟩ := new.of_commit
    obtain ⟨lock, now, mine, expired⟩ := h.added before
    refine ⟨?_, now, mine, fun i q here isFor => ?_⟩
    · rw [Table.holder_commit, if_neg (by rw [lock]; exact fun is => other (Option.some.inj is)), lock]
    · rw [Table.committed_commit] at here
      cases found : R.committed i with
      | some q' =>
          have same := h.same found here
          rw [same.heldAt_eq]
          exact expired i q' found ((same.isFor_eq _ _).symm.trans isFor)
      | none =>
          -- a request that `t` adds now would mean that `t` holds the requester as well
          have theirs := (h.added (.of_seen found here isFor)).lock
          exact absurd (Option.some.inj (lock.symm.trans theirs)) other
  · intro u v j j' r r' first second
    exact h.single first.of_commit.1 second.of_commit.1

theorem Serialised.rollback (h : Serialised requester hash client R P) (t : τ) :
    Serialised requester hash client (R.rollback t) (P.rollback t) := by
  refine ⟨h.prepared.rollback t, fun {j u} held => ?_, fun {u j r} new => ?_, ?_⟩
  · have same := Table.cell_rollback_other held
    rw [Table.committed_of_cell same, Table.pending_of_cell same]
    exact h.users (Table.holder_rollback_eq_some held).1
  · obtain ⟨before, other⟩ := new.of_rollback
    obtain ⟨lock, now, mine, expired⟩ := h.added before
    refine ⟨?_, now, mine, fun i q here => expired i q (by simpa using here)⟩
    rw [Table.holder_rollback, if_neg (by rw [lock]; exact fun is => other (Option.some.inj is)), lock]
  · intro u v j j' r r' first second
    exact h.single first.of_rollback.1 second.of_rollback.1

/-! ### Steps -/

/-- What becomes of the committed requests in a run: their submissions stay as they are, and
    one is added for the key when all others have expired. -/
structure KeyHistory (requester : Uuid) (hash : String) (client : τ → Option (Time × Option String))
    (R R' : Table Uuid τ DataSubjectRequest) : Prop where
  kept : ∀ {k r}, R.committed k = some r → ∃ s, R'.committed k = some s ∧ SameSubmission r s
  added : ∀ {k r}, R.committed k = none → R'.committed k = some r →
    r.isFor requester hash = true →
    ∃ t now, client t = some (now, r.idempotencyFingerprint) ∧ Expired requester hash R now

/-- What a step of `t` guarantees the others. -/
structure KeyMoves (requester : Uuid) (hash : String) (client : τ → Option (Time × Option String))
    (t : τ) (R R' : Table Uuid τ DataSubjectRequest) (P P' : Table Uuid τ Unit) : Prop where
  requests : R.Respects t R'
  users : P.Respects t P'
  people : ∀ k, P'.committed k = P.committed k
  history : KeyHistory requester hash client R R'
  locked : ∀ {k r}, R.committed k = none → R'.committed k = some r →
    r.isFor requester hash = true →
    P.holder requester = some t ∧ P.committed requester = some ()
  single : ∀ {k k' r r'}, R.committed k = none → R'.committed k = some r →
    r.isFor requester hash = true → R.committed k' = none → R'.committed k' = some r' →
    r'.isFor requester hash = true → k = k'

/-- Nobody else adds a request for the key: `t` holds the requester, or there is none. -/
def Guarded (requester : Uuid) (t : τ) (P : Table Uuid τ Unit) : Prop :=
  P.holder requester = some t ∨ P.committed requester = none

/-- What `t` relies on the others for. -/
structure KeyStays (requester : Uuid) (hash : String) (t : τ)
    (R R' : Table Uuid τ DataSubjectRequest) (P P' : Table Uuid τ Unit) : Prop where
  requests : R.Keeps t R'
  users : P.Keeps t P'
  people : ∀ k, P'.committed k = P.committed k
  kept : ∀ {k r}, R.committed k = some r → ∃ s, R'.committed k = some s ∧ SameSubmission r s
  quiet : Guarded requester t P → ∀ {k r}, R.committed k = none → R'.committed k = some r →
    r.isFor requester hash = false

theorem kept_of_same (same : ∀ k, R'.committed k = R.committed k)
    (here : R.committed k = some r) : ∃ s, R'.committed k = some s ∧ SameSubmission r s :=
  ⟨r, (same k).trans here, .refl r⟩

theorem KeyHistory.of_same (same : ∀ k, R'.committed k = R.committed k) :
    KeyHistory requester hash client R R' where
  kept := kept_of_same same
  added absent here := by cases absent.symm.trans ((same _).symm.trans here)

/-- A step that commits nothing. -/
theorem KeyMoves.of_same (requests : R.Respects t R') (users : P.Respects t P')
    (same : ∀ k, R'.committed k = R.committed k) (people : ∀ k, P'.committed k = P.committed k) :
    KeyMoves requester hash client t R R' P P' where
  requests := requests
  users := users
  people := people
  history := .of_same same
  locked absent here := by cases absent.symm.trans ((same _).symm.trans here)
  single absent here := by cases absent.symm.trans ((same _).symm.trans here)

theorem Serialised.moves_commit (h : Serialised requester hash client R P) (t : τ) :
    KeyMoves requester hash client t R (R.commit t) P (P.commit t) where
  requests := Table.respects_commit t R
  users := Table.respects_commit t P
  people k := by rw [Table.committed_commit, h.view_users]
  history := {
    kept := fun {k r} here => by
      obtain ⟨s, seen, -⟩ := h.prepared.view here t
      exact ⟨s, by rwa [Table.committed_commit], h.same here seen⟩
    added := fun absent here isFor => by
      rw [Table.committed_commit] at here
      exact ⟨t, (h.added (.of_seen absent here isFor)).expired⟩ }
  locked absent here isFor := by
    rw [Table.committed_commit] at here
    have lock := (h.added (.of_seen absent here isFor)).lock
    exact ⟨lock, (h.users lock).1⟩
  single absent here isFor absent' here' isFor' := by
    rw [Table.committed_commit] at here here'
    exact h.single (.of_seen absent here isFor) (.of_seen absent' here' isFor')

theorem KeyStays.refl (t : τ) (R : Table Uuid τ DataSubjectRequest) (P : Table Uuid τ Unit) :
    KeyStays requester hash t R R P P :=
  ⟨.refl t R, .refl t P, fun _ => rfl, kept_of_same fun _ => rfl,
    fun _ {_ _} absent here => by cases absent.symm.trans here⟩

theorem KeyStays.trans {A B C : Table Uuid τ DataSubjectRequest} {K L M : Table Uuid τ Unit}
    (first : KeyStays requester hash t A B K L) (second : KeyStays requester hash t B C L M) :
    KeyStays requester hash t A C K M where
  requests := first.requests.trans second.requests
  users := first.users.trans second.users
  people k := (second.people k).trans (first.people k)
  kept here := by
    obtain ⟨s, middle, same⟩ := first.kept here
    obtain ⟨u, last, same'⟩ := second.kept middle
    exact ⟨u, last, same.trans same'⟩
  quiet guarded {k r} absent here := by
    have still : Guarded requester t L :=
      guarded.imp (first.users.held_iff).mpr fun none => (first.people _).trans none
    cases found : B.committed k with
    | none => exact second.quiet still found here
    | some s =>
        obtain ⟨u, last, same⟩ := second.kept found
        cases here.symm.trans last
        exact (same.isFor_eq _ _).trans (first.quiet guarded absent found)

theorem KeyMoves.stays (h : KeyMoves requester hash client t R R' P P') (other : u ≠ t) :
    KeyStays requester hash u R R' P P' where
  requests := h.requests.keeps other
  users := h.users.keeps other
  people := h.people
  kept := h.history.kept
  quiet guarded {k r} absent here := by
    by_contra added
    obtain ⟨lock, known⟩ := h.locked absent here (by simpa using added)
    rcases guarded with mine | none
    · exact other (Option.some.inj (mine.symm.trans lock))
    · cases none.symm.trans known

theorem KeyHistory.trans {A B C : Table Uuid τ DataSubjectRequest}
    (first : KeyHistory requester hash client A B) (second : KeyHistory requester hash client B C) :
    KeyHistory requester hash client A C where
  kept here := by
    obtain ⟨s, middle, same⟩ := first.kept here
    obtain ⟨u, last, same'⟩ := second.kept middle
    exact ⟨u, last, same.trans same'⟩
  added {k r} absent here isFor := by
    cases found : B.committed k with
    | some s =>
        obtain ⟨u, last, same⟩ := second.kept found
        cases here.symm.trans last
        rw [same.fingerprint]
        exact first.added absent found ((same.isFor_eq _ _).symm.trans isFor)
    | none =>
        obtain ⟨t, now, mine, expired⟩ := second.added found here isFor
        refine ⟨t, now, mine, fun j q old isFor' => ?_⟩
        obtain ⟨s, middle, same⟩ := first.kept old
        rw [← same.heldAt_eq]
        exact expired j s middle ((same.isFor_eq _ _).trans isFor')

end Serialised

/-! ## The discipline -/

/-- `t` has looked for the key at `now`, guarded, and has not locked any request. -/
structure Checked (requester : Uuid) (hash : String) (t : τ) (now : Time) (db : UsersDb τ) :
    Prop where
  noRequests : Table.HoldsNone t db.privacy.requests
  guarded : Guarded requester t db.users
  expired : Expired requester hash db.privacy.requests now

/-- What a statement of `t` needs. -/
def SubmitNeeds (requester : Uuid) (hash : String) (client : τ → Option (Time × Option String))
    (t : τ) (s : Statement) (db : UsersDb τ) : Prop :=
  match s with
  | .insertRequest _ request => request.isFor requester hash = true →
      ∃ now, client t = some (now, request.idempotencyFingerprint) ∧
        Checked requester hash t now db
  | .flushRequest _ loaded assigned => SameSubmission loaded assigned
  | .rollbackTo _ => False
  | _ => True

theorem guarded_knows {R : Table Uuid τ DataSubjectRequest}
    (h : Serialised requester hash client R db.users) (guarded : Guarded requester t db.users)
    {request : DataSubjectRequest} (isFor : request.isFor requester hash = true)
    (known : db.knows t request = true) : db.users.holder requester = some t := by
  simp only [DataSubjectRequest.isFor, Bool.and_eq_true, beq_iff_eq] at isFor
  rcases guarded with mine | none
  · exact mine
  · have absent : db.users.view t requester = .none := by rw [h.view_users, none]
    simp [UsersDb.knows, isFor.1, absent] at known

section Steps

/-- The tables of requests after a statement that is neither commit nor rollback. -/
theorem Case.requests {privacy next : Db τ} (case : Case t s privacy next)
    (h : Serialised requester hash client privacy.requests db.users) (open_ : s ≠ .commit)
    (noRollback : s ≠ .rollback) (needs : SubmitNeeds requester hash client t s db)
    (may : ∀ id request, s = .insertRequest id request → next = privacy ∨
      (request.isFor requester hash = true → Table.HoldsNone t privacy.requests ∧
        MayAdd requester hash client privacy.requests db.users t request.idempotencyFingerprint)) :
    Serialised requester hash client next.requests db.users ∧
      privacy.requests.Respects t next.requests ∧
      ∀ k, next.requests.committed k = privacy.requests.committed k := by
  cases case with
  | insertRequest id row is unseen free =>
      rcases may id row is with same | may
      · rw [same]
        exact ⟨h, .refl t _, fun _ => rfl⟩
      · exact ⟨h.add unseen may, Table.respects_put free, by simp⟩
  | lockRequest id row _ seen free => exact ⟨h.put seen (.refl row), Table.respects_put free, by simp⟩
  | transition id expected values row _ seen _ _ free =>
      exact ⟨h.put seen ⟨rfl, rfl, rfl, rfl⟩, Table.respects_put free, by simp⟩
  | review id expected expectedRepresentative values row _ seen _ free =>
      refine ⟨h.put seen ?_, Table.respects_put free, by simp⟩
      cases values <;> exact ⟨rfl, rfl, rfl, rfl⟩
  | flushRequest id loaded assigned row is seen free =>
      subst is
      exact ⟨h.put seen (SameSubmission.flush needs row), Table.respects_put free, by simp⟩
  | restore saved is =>
      subst is
      exact needs.elim
  | commit is => exact absurd is open_
  | rollback is => exact absurd is noRollback
  | _ => exact ⟨h, .refl t _, fun _ => rfl⟩

theorem UsersCase.keeps (case : UsersCase t s db db')
    (h : Serialised requester hash client db.privacy.requests db.users)
    (needs : SubmitNeeds requester hash client t s db) :
    Serialised requester hash client db'.privacy.requests db'.users ∧
      KeyMoves requester hash client t db.privacy.requests db'.privacy.requests db.users db'.users := by
  cases case with
  | lockUser id row _ seen free =>
      exact ⟨h.lockUser seen free,
        .of_same (.refl t _) (Table.respects_put free) (fun _ => rfl) (by simp)⟩
  | privacy next case open_ noRollback known =>
      have may : ∀ id request, s = .insertRequest id request → next = db.privacy ∨
          (request.isFor requester hash = true → Table.HoldsNone t db.privacy.requests ∧
            MayAdd requester hash client db.privacy.requests db.users t
              request.idempotencyFingerprint) := by
        intro id request is
        rcases known id request is with same | present
        · exact .inl same
        · subst is
          refine .inr fun isFor => ?_
          obtain ⟨now, mine, none, guarded, expired⟩ := needs isFor
          exact ⟨none, guarded_knows h guarded isFor present, now, mine, expired⟩
      obtain ⟨kept, respects, same⟩ := case.requests h open_ noRollback needs may
      exact ⟨kept, .of_same respects (.refl t _) same fun _ => rfl⟩
  | commit => exact ⟨h.commit t, h.moves_commit t⟩
  | rollback =>
      exact ⟨h.rollback t, .of_same (Table.respects_rollback t _) (Table.respects_rollback t _)
        (by simp [Db.rollback]) (by simp)⟩

end Steps

def submitDiscipline (requester : Uuid) (hash : String)
    (client : τ → Option (Time × Option String)) :
    Discipline (usersMachine τ) .commit .rollback where
  inv db := Serialised requester hash client db.privacy.requests db.users
  moves t db db' :=
    KeyMoves requester hash client t db.privacy.requests db'.privacy.requests db.users db'.users
  stays t db db' :=
    KeyStays requester hash t db.privacy.requests db'.privacy.requests db.users db'.users
  unchanged _ _ := True
  needs := SubmitNeeds requester hash client
  stays_refl t db := .refl t _ _
  stays_trans := KeyStays.trans
  stays_of_moves other moved := moved.stays other
  exec holds needs executed :=
    have ⟨kept, moved⟩ := (execUsers_case executed).keeps holds needs
    ⟨kept, moved, fun _ => trivial⟩
  crash {t db} holds :=
    have case : UsersCase t .rollback db ⟨db.privacy.rollback t, db.users.rollback t⟩ := .rollback rfl
    have ⟨kept, moved⟩ := case.keeps holds trivial
    ⟨kept, moved, trivial⟩
  env holds moved := by
    obtain ⟨clock, rfl⟩ := moved
    exact ⟨holds, fun t => .refl t _ _, trivial⟩
  unchanged_refl _ := trivial
  differ := rollback_ne_commit
  rollback_needs _ _ := trivial
  rollback_ok executed := by
    cases executed
    exact ⟨(), rfl⟩
  certain := nofun

def submitTerms (requester : Uuid) (hash : String) (client : τ → Option (Time × Option String)) :
    Terms (submitDiscipline requester hash client) where
  promise _ _ _ := True
  allowed _ _ _ := True
  shows := SubmitNeeds requester hash client
  unbroken _ _ _ _ := trivial
  enough _ _ shown := shown
  rollback_shows _ _ := trivial

abbrev submitContract (requester : Uuid) (hash : String)
    (client : τ → Option (Time × Option String)) : Contract τ Statement (UsersDb τ) :=
  (submitTerms requester hash client).contract

end SaasTemplate.Privacy
