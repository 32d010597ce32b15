import SaasTemplate.Tenancy.InviteTokens

/-! # Invites in every run

What holds of the invite operations in any interleaving: an invite becomes accepted by
the commit of one `accept_invite` call and of no other, a call that raises leaves no
trace, and a token that has been replaced is never accepted again.
-/

set_option linter.unusedSectionVars false

namespace SaasTemplate.Tenancy

open SaasTemplate.Isolation SaasTemplate.Isolation.Prog

variable {τ : Type} [DecidableEq τ] {text : TextOps} {op : τ → InviteOp}
  {start c d : Config τ Statement Answer AppError (Db τ) Unit} {t : τ} {i : Uuid}

/-- What holds of every configuration of a run of invite operations. -/
structure InRun (text : TextOps) (op : τ → InviteOp)
    (c : Config τ Statement Answer AppError (Db τ) Unit) : Prop where
  safe : Contract.Sound.Safe (machine τ text) (acceptanceContract text op) (fun _ _ _ => True) c
  commitsLast : ∀ t s k, c.run t = some (.call s k) → (Prog.call s k).CommitsLast .commit
  issues : ∀ t s k, c.run t = some (.call s k) →
    (Prog.call s k).Only fun s => s = .commit ∨ s = .rollback ∨ (op t).Issues text s
  hashes : HashesKnown text op c.db

theorem InviteStart.inRun (h : InviteStart text op start) : InRun text op start := by
  have program : ∀ {t s k}, start.run t = some (.call s k) → (op t).program text = .call s k :=
    fun running => Option.some.inj ((h.operations _).symm.trans running)
  refine ⟨⟨h.atRest.lawful, fun t s k running => ?_⟩, fun t s k running => ?_,
    fun t s k running => ?_, fun k t row held => by simp [h.atRest.invites.unlocked k] at held⟩
  · rw [← program running]
    exact InviteOp.program_ready (fun k => by simp [h.atRest.invites.unlocked k])
      (fun k => by simp [h.atRest.users.unlocked k])
      (fun k => by simp [h.atRest.memberships.unlocked k])
  · exact program running ▸ (op t).program_transactional.commitsLast
  · exact program running ▸ (op t).program_transactional.only

theorem InRun.step (h : InRun text op c) (step : (machine τ text).Step (fun _ _ _ => True) c d) :
    InRun text op d := by
  have sound : (acceptanceContract text op).Sound (machine τ text) := tenantContract_sound
  refine ⟨sound.step h.safe step, step.commitsLast h.commitsLast,
    step.only (P := fun t s => s = .commit ∨ s = .rollback ∨ (op t).Issues text s) h.issues, ?_⟩
  cases step with
  | exec running _ executed => exact h.hashes.exec h.safe.1 (h.issues _ _ _ running).1 executed
  | fault => exact h.hashes
  | @crash t => exact h.hashes.rollback t
  | env moved =>
      obtain ⟨clock, rfl⟩ := moved
      exact h.hashes

/-- A step that ends a call normally. -/
def Finishes (t : τ) (c d : Config τ Statement Answer AppError (Db τ) Unit) : Prop :=
  c.result t = none ∧ d.result t = some (.ok ())

theorem not_finishes_of_same (same : d.run t = c.run t) : ¬Finishes t c d := by
  rintro ⟨running, ended⟩
  simp [Config.result, ← same] at running ended
  simp [ended] at running

theorem not_finishes_of_commitsLast {p : Tx Unit} (now : d.run t = some p)
    (last : p.CommitsLast .commit) : ¬Finishes t c d := by
  rintro ⟨-, ended⟩
  rw [Config.run_of_result ended] at now
  cases now
  obtain ⟨e, is⟩ := last
  cases is

/-- A step commits nothing and no call ends with it, or it ends one call with its commit. -/
theorem InRun.step_cases (h : InRun text op c)
    (step : (machine τ text).Step (fun _ _ _ => True) c d) :
    (SameCommitted c.db d.db ∧ ∀ t, ¬Finishes t c d) ∨
    ∃ t, c.Running t ∧ d.db = c.db.commit t ∧ (op t).Ready text t c.db ∧
      d.result t = some (.ok ()) ∧ ∀ u, u ≠ t → d.run u = c.run u := by
  have sound : (acceptanceContract text op).Sound (machine τ text) := tenantContract_sound
  have same : SameCommitted c.db c.db := ⟨fun _ => rfl, fun _ => rfl, fun _ => rfl, fun _ => rfl⟩
  have still : ∀ {v rest}, (∀ p, rest = some p → p.CommitsLast .commit) → ∀ {db' : Db τ} (u : τ),
      ¬Finishes u c ⟨db', Function.update c.run v rest⟩ := by
    intro v rest last db' u
    by_cases mover : u = v
    · subst mover
      cases rest with
      | none =>
          rintro ⟨-, ended⟩
          simp [Config.result] at ended
      | some p => exact not_finishes_of_commitsLast (by simp) (last p rfl)
    · exact not_finishes_of_same (Function.update_of_ne mover _ _)
  cases step with
  | @exec t s k r db' running _ executed =>
      by_cases is : s = .commit
      · subst is
        cases executed
        obtain ⟨a, ends⟩ := (h.commitsLast t _ k running).1 rfl ()
        refine .inr ⟨t, ⟨_, k, running⟩, rfl, sound.shown h.safe running rfl, ?_, fun u other =>
          Function.update_of_ne other _ _⟩
        simp [Config.result, ends]
      · refine .inl ⟨(exec_case h.safe.1 executed).sameCommitted is, still ?_⟩
        rintro p ⟨⟩
        exact (h.commitsLast t s k running).2 r fun same => absurd same is
  | @fault t s k e running =>
      refine .inl ⟨same, still ?_⟩
      rintro p ⟨⟩
      exact (h.commitsLast t s k running).2 _ fun _ => ⟨e, rfl⟩
  | @crash t => exact .inl ⟨rollback_sameCommitted t c.db, still fun _ none => by cases none⟩
  | env moved =>
      obtain ⟨clock, rfl⟩ := moved
      exact .inl ⟨⟨fun _ => rfl, fun _ => rfl, fun _ => rfl, fun _ => rfl⟩,
        fun u => not_finishes_of_same rfl⟩

/-! ## Acceptance -/

/-- In this step an `accept_invite` call commits the acceptance of invite `i`. -/
def AcceptsInvite (text : TextOps) (op : τ → InviteOp) (t : τ) (i : Uuid)
    (c d : Config τ Statement Answer AppError (Db τ) Unit) : Prop :=
  Finishes t c d ∧
    ∃ request old uid, op t = .accept request ∧ Accepts text request i old uid c.db d.db

/-- A committed step of a call that is not an acceptance accepts nothing. -/
theorem InviteOp.Ready.acceptsNone {op : InviteOp} {db : Db τ} (h : op.Ready text t db)
    (other : ∀ request, op ≠ .accept request) : AcceptsNone db (db.commit t) := by
  cases op with
  | accept request => exact absurd rfl (other request)
  | resend => exact h.1
  | create | revoke | expireInDelivery | anonymise => exact h

theorem InRun.accepted_stays (h : InRun text op c)
    (step : (machine τ text).Step (fun _ _ _ => True) c d)
    (accepted : CommittedStatus c.db i .accepted) : CommittedStatus d.db i .accepted := by
  obtain ⟨row, here, status⟩ := accepted
  rcases h.step_cases step with ⟨same, -⟩ | ⟨t, -, is, -⟩
  · exact ⟨row, (same.invites i).trans here, status⟩
  · obtain ⟨row', seen, -, -, kept | pending⟩ := h.safe.1.invites.follows.view t i row here
    · exact ⟨row', by simpa [is, Db.commit] using seen, kept.trans status⟩
    · simp [status] at pending

/-- An accept call that ends normally accepts an invite with its last step. -/
theorem InRun.finishes_accepts (h : InRun text op c)
    (step : (machine τ text).Step (fun _ _ _ => True) c d) {request : AcceptInviteCall}
    (is : op t = .accept request) (finishes : Finishes t c d) : ∃ i, AcceptsInvite text op t i c d := by
  rcases h.step_cases step with ⟨-, none⟩ | ⟨u, -, commits, ready, -, others⟩
  · exact absurd finishes (none t)
  · by_cases mover : t = u
    · subst mover
      simp only [is, InviteOp.Ready] at ready
      obtain ⟨i, old, uid, accepts⟩ := ready
      exact ⟨i, finishes, request, old, uid, is, commits ▸ accepts⟩
    · exact absurd finishes (not_finishes_of_same (others t mover))

/-- An invite becomes accepted only by the commit of an accept call. -/
theorem InRun.acceptance_starts (h : InRun text op c)
    (step : (machine τ text).Step (fun _ _ _ => True) c d)
    (before : ¬CommittedStatus c.db i .accepted) (after : CommittedStatus d.db i .accepted) :
    ∃ t, AcceptsInvite text op t i c d := by
  rcases h.step_cases step with ⟨same, -⟩ | ⟨t, ⟨s, k, running⟩, commits, ready, ended, -⟩
  · obtain ⟨row, here, status⟩ := after
    exact absurd ⟨row, (same.invites i).symm.trans here, status⟩ before
  · have finishes : Finishes t c d := ⟨by simp [Config.result, running], ended⟩
    cases is : op t with
    | accept request =>
        obtain ⟨j, -, request', old, uid, is', accepts⟩ := h.finishes_accepts step is finishes
        by_cases same : i = j
        · exact ⟨t, finishes, request', old, uid, is', same ▸ accepts⟩
        · obtain ⟨row, here, status⟩ := after
          exact absurd ⟨row, (accepts.otherInvites i same).symm.trans here, status⟩ before
    | create | resend | revoke | expireInDelivery | anonymise =>
        refine absurd ((InviteOp.Ready.acceptsNone (is ▸ ready) fun _ => by simp).invites i ?_) before
        exact commits ▸ after

theorem AcceptsInvite.switches (h : AcceptsInvite text op t i c d) :
    ¬CommittedStatus c.db i .accepted ∧ CommittedStatus d.db i .accepted := by
  obtain ⟨-, request, old, uid, -, accepts⟩ := h
  obtain ⟨now, after⟩ := accepts.accepted
  refine ⟨?_, _, after, rfl⟩
  rintro ⟨row, here, status⟩
  obtain rfl : old = row := Option.some.inj (accepts.was.symm.trans here)
  simp [accepts.pending] at status

theorem Finishes.unique {u : τ} (step : (machine τ text).Step (fun _ _ _ => True) c d)
    (first : Finishes t c d) (second : Finishes u c d) : t = u := by
  have moved : ∀ {v}, Finishes v c d → d.run v ≠ c.run v :=
    fun finishes same => not_finishes_of_same same finishes
  exact step.mover_unique (moved first) (moved second)

/-- A step of a call that does not end normally commits nothing. -/
theorem InRun.moved_sameCommitted (h : InRun text op c)
    (step : (machine τ text).Step (fun _ _ _ => True) c d) (moved : d.run t ≠ c.run t)
    (unfinished : d.result t ≠ some (.ok ())) : SameCommitted c.db d.db := by
  rcases h.step_cases step with ⟨same, -⟩ | ⟨u, -, -, -, ended, others⟩
  · exact same
  · by_cases mover : t = u
    · exact absurd (mover ▸ ended) unfinished
    · exact absurd (others t mover) moved

/-! ## Replaced tokens -/

/-- No running call has drawn the token with this digest. -/
def Spent (text : TextOps) (op : τ → InviteOp) (hash : String)
    (c : Config τ Statement Answer AppError (Db τ) Unit) : Prop :=
  ∀ t, (op t).Draws text hash → ¬c.Running t

/-- Every digest in the committed state is spent. -/
def AllSpent (text : TextOps) (op : τ → InviteOp)
    (c : Config τ Statement Answer AppError (Db τ) Unit) : Prop :=
  ∀ k row, c.db.invites.committed k = some row → Spent text op row.tokenHash c

/-- The digest is spent and on no invite. -/
structure Replaced (text : TextOps) (op : τ → InviteOp) (hash : String)
    (c : Config τ Statement Answer AppError (Db τ) Unit) : Prop where
  gone : ∀ k row, c.db.invites.committed k = some row → row.tokenHash ≠ hash
  spent : Spent text op hash c

theorem FreshTokens.allSpent (h : FreshTokens text op start.db) : AllSpent text op start := by
  rintro k row here t ⟨token, drawn, hash⟩
  exact absurd hash (h.unused t token drawn k row here)

/-- A digest that appears is the one drawn by the call that ends with this step. -/
theorem InRun.new_hash (h : InRun text op c) (step : (machine τ text).Step (fun _ _ _ => True) c d)
    {k : Uuid} {row : Invite} (here : d.db.invites.committed k = some row) :
    (∃ old, c.db.invites.committed k = some old ∧ old.tokenHash = row.tokenHash) ∨
    (∃ t, c.Running t ∧ ¬d.Running t ∧ (op t).Draws text row.tokenHash) ∨
    row.tokenHash = scrubbedInviteTokenHash k := by
  rcases h.step_cases step with ⟨same, -⟩ | ⟨t, running, commits, -, ended, -⟩
  · exact .inl ⟨row, (same.invites k).symm.trans here, rfl⟩
  · have seen : c.db.invites.view t k = some row := by simpa [commits, Db.commit] using here
    rcases h.hashes.view seen with kept | drawn | scrubbed
    · exact .inl kept
    · exact .inr (.inl ⟨t, running, Config.not_running_of_result ended, drawn⟩)
    · exact .inr (.inr scrubbed)

theorem Spent.step {hash : String} (h : Spent text op hash c)
    (step : (machine τ text).Step (fun _ _ _ => True) c d) : Spent text op hash d :=
  fun t draws => step.not_running (h t draws)

section Digests

variable (digest : Digest text)
include digest

theorem Digest.not_draws (op : InviteOp) (k : Uuid) :
    ¬op.Draws text (scrubbedInviteTokenHash k) := by
  rintro ⟨token, -, same⟩
  exact digest.notScrubbed token k same.symm

theorem Digest.same_call {db : Db τ} (fresh : FreshTokens text op db) {hash : String} {t u : τ}
    (first : (op t).Draws text hash) (second : (op u).Draws text hash) : t = u := by
  obtain ⟨token, drawn, rfl⟩ := first
  obtain ⟨token', drawn', same⟩ := second
  exact fresh.distinct t u token drawn (digest.collisionFree same ▸ drawn')

theorem AllSpent.step {db : Db τ} (fresh : FreshTokens text op db) (spent : AllSpent text op c)
    (h : InRun text op c) (step : (machine τ text).Step (fun _ _ _ => True) c d) :
    AllSpent text op d := by
  intro k row here
  rcases h.new_hash step here with ⟨old, was, same⟩ | ⟨t, -, ended, draws⟩ | scrubbed
  · exact same ▸ (spent k old was).step step
  · intro u draws'
    exact digest.same_call fresh draws draws' ▸ ended
  · exact fun u draws => absurd (scrubbed ▸ draws) (digest.not_draws (op u) k)

theorem Replaced.step {token : String} (replaced : Replaced text op (text.sha256 token) c)
    (h : InRun text op c) (step : (machine τ text).Step (fun _ _ _ => True) c d) :
    Replaced text op (text.sha256 token) d := by
  refine ⟨fun k row here same => ?_, replaced.spent.step step⟩
  rcases h.new_hash step here with ⟨old, was, kept⟩ | ⟨t, running, -, draws⟩ | scrubbed
  · exact replaced.gone k old was (kept.trans same)
  · exact replaced.spent t (same ▸ draws) running
  · exact digest.notScrubbed token k (same.symm.trans scrubbed)

/-- The commit of a resend replaces the token of its invite. -/
theorem InRun.resend_replaces (h : InRun text op c) (spent : AllSpent text op c)
    (step : (machine τ text).Step (fun _ _ _ => True) c d) {request : InviteCall} {drawn token : String}
    (is : op t = .resend request drawn) (finishes : Finishes t c d) {old : Invite}
    (was : c.db.invites.committed request.inviteId = some old)
    (hash : old.tokenHash = text.sha256 token) : Replaced text op (text.sha256 token) d := by
  have spent : Spent text op (text.sha256 token) c := hash ▸ spent _ old was
  refine ⟨fun k row here same => ?_, spent.step step⟩
  by_cases this : k = request.inviteId
  · subst this
    rcases h.step_cases step with ⟨-, none⟩ | ⟨u, running, commits, ready, -, others⟩
    · exact none t finishes
    · have mover : t = u := by
        by_contra other
        exact not_finishes_of_same (others t other) finishes
      subst mover
      simp only [is, InviteOp.Ready] at ready
      obtain ⟨-, held, new, pending, rotated⟩ := ready
      obtain rfl : new = row := by
        simpa [commits, Db.commit, Table.view_of_held held, pending] using here
      exact spent t ⟨drawn, by rw [is]; rfl, same.symm.trans rotated⟩ running
  · rcases h.new_hash step here with ⟨other, there, kept⟩ | ⟨u, running, -, draws⟩ | scrubbed
    · refine h.safe.1.invites.unique.committed this ?_
      refine ⟨other, old, .tokenHash (text.sha256 token), there, was, ?_, ?_⟩
      · simp [Invite.entries, kept, same]
      · simp [Invite.entries, hash]
    · exact spent u (same ▸ draws) running
    · exact digest.notScrubbed token k (same.symm.trans scrubbed)

end Digests

/-! ## The run theorem -/

section Runs

variable {cs : List (Config τ Statement Answer AppError (Db τ) Unit)}
  (h : InviteStart text op start)
  (run : cs.IsChain ((machine τ text).Step fun _ _ _ => True)) (first : cs[0]? = some start)
include h run first

theorem InviteStart.inRun_at {n : ℕ} (here : cs[n]? = some c) : InRun text op c :=
  chain_induction first here (Nat.zero_le n) h.inRun fun _ _ _ _ at_ before =>
    before.step (at_.rel run)

theorem InviteStart.accepted_iff {n : ℕ} (off : ¬CommittedStatus start.db i .accepted)
    (here : cs[n]? = some d) :
    CommittedStatus d.db i .accepted ↔ ∃! p : ℕ × τ, p.1 < n ∧
      ∃ a b, StepAt cs p.1 a b ∧ AcceptsInvite text op p.2 i a b := by
  have stays : ∀ n a b, StepAt cs n a b → CommittedStatus a.db i .accepted →
      CommittedStatus b.db i .accepted :=
    fun _ _ _ at_ => (h.inRun_at run first at_.before).accepted_stays (at_.rel run)
  have starts : ∀ n a b, StepAt cs n a b → ¬CommittedStatus a.db i .accepted →
      CommittedStatus b.db i .accepted → ∃ t, AcceptsInvite text op t i a b :=
    fun _ _ _ at_ => (h.inRun_at run first at_.before).acceptance_starts (at_.rel run)
  exact on_iff_existsUnique_event stays starts (fun _ _ _ _ _ accepts => accepts.switches)
    (fun _ _ _ _ _ at_ one other => Finishes.unique (at_.rel run) one.1 other.1) first off here

theorem InviteStart.raising_leaves {n m : ℕ} {a b : Config τ Statement Answer AppError (Db τ) Unit}
    {e : AppError} (here : cs[n]? = some d) (raised : d.result t = some (.error e)) (below : m < n)
    (at_ : StepAt cs m a b) (moved : b.run t ≠ a.run t) : SameCommitted a.db b.db := by
  refine (h.inRun_at run first at_.before).moved_sameCommitted (at_.rel run) moved fun finished => ?_
  have still : d.result t = some (.ok ()) :=
    chain_induction (P := fun c => c.result t = some (.ok ())) at_.after here below finished
      fun _ _ _ _ next before => (next.rel run).result_stays before
  simp [raised] at still

theorem InviteStart.replaced_token_refused (digest : Digest text)
    (fresh : FreshTokens text op start.db) {m n : ℕ}
    {a b c d : Config τ Statement Answer AppError (Db τ) Unit} {request : InviteCall} {drawn : String}
    {old : Invite} {u : τ} {accept : AcceptInviteCall} (is : op t = .resend request drawn)
    (resends : StepAt cs m a b) (resent : Finishes t a b)
    (was : a.db.invites.committed request.inviteId = some old) (is' : op u = .accept accept)
    (hash : old.tokenHash = text.sha256 accept.token) (later : m < n) (accepts : StepAt cs n c d) :
    ¬Finishes u c d := by
  intro finishes
  have spent : ∀ {k c}, cs[k]? = some c → AllSpent text op c := fun here =>
    (chain_induction (P := fun c => InRun text op c ∧ AllSpent text op c) first here (Nat.zero_le _)
      ⟨h.inRun, fresh.allSpent⟩ fun _ _ _ _ at_ before =>
        ⟨before.1.step (at_.rel run), before.2.step digest fresh before.1 (at_.rel run)⟩).2
  have replaced : Replaced text op (text.sha256 accept.token) c :=
    chain_induction resends.after accepts.before (by omega)
      ((h.inRun_at run first resends.before).resend_replaces digest (spent resends.before)
        (resends.rel run) is resent was hash)
      fun _ _ _ _ at_ before =>
        before.step digest (h.inRun_at run first at_.before) (at_.rel run)
  obtain ⟨i, -, accept', invite, uid, is'', accepted⟩ :=
    (h.inRun_at run first accepts.before).finishes_accepts (accepts.rel run) is' finishes
  obtain rfl : accept' = accept := by simpa [is''] using is'
  exact replaced.gone i invite accepted.was accepted.token

end Runs

theorem no_digest {token text : String} (other : text.toList.head? ≠ some 'n') :
    "no digest of " ++ token ≠ text := by
  rintro rfl
  simp at other

theorem plainText_digest : Digest plainText where
  collisionFree a b same := by
    simp only [plainText] at same
    split at same <;> split at same <;> try split at same
    all_goals try split at same
    all_goals first
      | exact absurd same (no_digest (by decide))
      | exact absurd same.symm (no_digest (by decide))
      | simp_all
  notScrubbed token id same := by
    have head := congrArg (fun text : String => text.toList.head?) same
    have scrubbed : (scrubbedInviteTokenHash id).toList.head? = some 's' := by
      simp [scrubbedInviteTokenHash, scrubbedInviteTokenPrefix, toString]
    simp only [scrubbed, plainText] at head
    split at head
    · exact absurd head (by decide)
    · split at head
      · exact absurd head (by decide)
      · simp at head

def openInvite : Invite where
  email := "new@example.org"
  organisationId := 1
  role := .member
  status := .pending
  tokenHash := plainText.sha256 "token"
  expiresAt := some 20
  revokedAt := none
  revokedByUserId := none
  updatedAt := 0

/-- Organisation 1 with its owner and an invite that is open until time 20; it is time 10. -/
def openDb : Db Bool where
  users := .ofRows [(100, exampleUser "owner")]
  organisations := .ofRows [(1, ⟨"Org", "org", none, .active⟩)]
  memberships := .ofRows [(10, ⟨100, 1, .owner, true⟩)]
  invites := .ofRows [(7, openInvite)]
  clock := 10

/-- One client accepts the invite, the other sends it again. -/
def openOp : Bool → InviteOp
  | false => .accept ⟨"token", ⟨"new", some "new@example.org", true, none, none⟩, 101, 11⟩
  | true => .resend ⟨1, 7, 100, some 100⟩ "second"

def openStart : Config Bool Statement Answer AppError (Db Bool) Unit :=
  ⟨openDb, fun t => some ((openOp t).program plainText)⟩

theorem openStart_start : InviteStart plainText openOp openStart :=
  ⟨⟨Table.atRest_ofRows (by decide), Table.atRest_ofRows (by decide),
    Table.atRest_ofRows (by decide), Table.atRest_ofRows (by decide)⟩, fun _ => rfl⟩

theorem openStart_fresh : FreshTokens plainText openOp openStart.db where
  distinct t u token first second := by cases t <;> cases u <;> simp_all [openOp, InviteOp.token]
  unused t token drawn k row here := by
    have stored : openStart.db.invites.committed k = [((7 : Uuid), openInvite)].lookup k :=
      Table.committed_ofRows _ k
    have member := Table.lookup_mem (stored.symm.trans here)
    simp only [List.mem_singleton, Prod.mk.injEq] at member
    cases t with
    | false => cases drawn
    | true =>
        obtain rfl : "second" = token := Option.some.inj drawn
        rw [member.2]
        decide

end SaasTemplate.Tenancy
