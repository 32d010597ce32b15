import SaasTemplate.Outbox.Delivery

/-! # At most one delivery

Once the sink has taken the token of an event, the event stays with the worker that
delivered it until it is processed. The schedule at the end shows a release after a refused
enqueue that gives the event away in between.
-/

set_option linter.unusedSectionVars false

namespace SaasTemplate.Outbox

open SaasTemplate.Isolation SaasTemplate.Isolation.Prog

open SaasTemplate.Tenancy (Invite)

variable {τ : Type} [DecidableEq τ] {text : TextOps} {op : τ → OutboxOp} {t : τ}
  {s : Statement} {db db' : Db τ} {id : Uuid}
  {start a b c d : Config τ Statement Answer AppError (Db τ) Unit}

/-- Clients whose claim tokens are their own. -/
structure DeliveryStart (text : TextOps) (op : τ → OutboxOp)
    (c : Config τ Statement Answer AppError (Db τ) Unit) : Prop extends OutboxStart text op c where
  distinct : ∀ t u token, (op t).claimToken = some token → (op u).claimToken = some token → t = u

/-- In this step the sink takes the token of event `id` and returns. -/
def Delivers (id : Uuid) (a b : Config τ Statement Answer AppError (Db τ) Unit) : Prop :=
  ∃ t invite rawToken k, a.run t = some (.call (.deliver id invite rawToken) k) ∧
    b.run t = some (k (.ok ()))

/-- The event of a worker's message. -/
def OutboxOp.message : OutboxOp → Option Uuid
  | .work id _ _ => some id
  | _ => none

/-- The broker takes messages for event `id` from this client. -/
def OutboxOp.accepts (id : Uuid) : OutboxOp → Bool
  | .dispatch _ send => (send id).isNone
  | _ => false

/-- In this step a dispatcher commits its claim of event `id`, which it enqueues next. -/
def Enqueues (op : τ → OutboxOp) (id : Uuid)
    (a b : Config τ Statement Answer AppError (Db τ) Unit) : Prop :=
  ∃ t k e, (op t).accepts id = true ∧ a.run t = some (.call .commit k) ∧
    b.run t = some (k (.ok ())) ∧ a.db.events.holder id = some t ∧
    a.db.events.pending id = some e ∧ e.status = .processing

/-- The clients, and the events for which a message has been enqueued: from then on it may
    start any number of workers at any time. -/
structure Posted (τ : Type) where
  config : Config τ Statement Answer AppError (Db τ) Unit
  messages : List Uuid

/-- A step in which workers only move for a message that has been enqueued. -/
structure Posted.Step (text : TextOps) (op : τ → OutboxOp) (allowed : τ → Statement → Db τ → Prop)
    (a b : Posted τ) : Prop where
  moved : (machine τ text).Step allowed a.config b.config
  received : ∀ t id, (op t).message = some id → b.config.run t ≠ a.config.run t → id ∈ a.messages
  enqueued : ∀ id ∈ b.messages, id ∈ a.messages ∨ Enqueues op id a.config b.config

abbrev Posted.Reaches (text : TextOps) (op : τ → OutboxOp)
    (allowed : τ → Statement → Db τ → Prop) : Posted τ → Posted τ → Prop :=
  Relation.ReflTransGen (Posted.Step text op allowed)

/-- From `start`, with no message enqueued yet, the sink returns for an event at most once. -/
def DeliveredAtMostOnce (text : TextOps) (op : τ → OutboxOp)
    (allowed : τ → Statement → Db τ → Prop)
    (start : Config τ Statement Answer AppError (Db τ) Unit) : Prop :=
  ∀ id (a b c d : Posted τ), Posted.Reaches text op allowed ⟨start, []⟩ a →
    Posted.Step text op allowed a b → Delivers id a.config b.config →
    Posted.Reaches text op allowed b c → Posted.Step text op allowed c d →
      ¬Delivers id c.config d.config

/-! ## The worker that has delivered -/

def OutboxStatus.isUnderway : OutboxStatus → Bool
  | .processing | .processed => true
  | .pending | .failed => false

/-- The event is processed, or its claim belongs to a worker that only finishes: whatever
    this worker has prepared for the event is that it is processed. -/
structure Finishing (op : τ → OutboxOp) (id : Uuid) (t : τ)
    (c : Config τ Statement Answer AppError (Db τ) Unit) : Prop where
  owns : OwnsClaim (fun t => (op t).claimToken) t id c.db.claims
  finishes : ∀ s k, c.run t = some (.call s k) → (Prog.call s k).Only (·.finishes = true)
  prepared : ∀ e, c.db.events.holder id = some t → c.db.events.pending id = some e →
    e.status.isUnderway = true

def HasDelivered (op : τ → OutboxOp) (id : Uuid)
    (c : Config τ Statement Answer AppError (Db τ) Unit) : Prop :=
  (∃ e, c.db.events.committed id = some e ∧ e.status = .processed) ∨ ∃ t, Finishing op id t c

/-- A statement that finishes prepares nothing but an event that is processed. -/
theorem Case.underway (case : Case t s db db') (finishes : s.finishes = true)
    (seen : ∀ e, db.events.view t id = some e → e.status.isUnderway = true) :
    ∀ e, db'.events.holder id = some t → db'.events.pending id = some e →
      e.status.isUnderway = true := by
  have held : ∀ e, db.events.holder id = some t → db.events.pending id = some e →
      e.status.isUnderway = true := fun e held prepared =>
    seen e ((Table.view_of_held held).trans prepared)
  have put {other : Uuid} {f : OutboxEvent}
      (own : other = id → f.status.isUnderway = true) :
      ∀ e, (db.events.put t other (some f)).holder id = some t →
        (db.events.put t other (some f)).pending id = some e → e.status.isUnderway = true := by
    intro e holds prepared
    by_cases same : id = other
    · subst same
      simp only [Table.pending_put_same, Option.some.injEq] at prepared
      exact prepared ▸ own rfl
    · exact held e (by simpa [Table.holder_put_other same] using holds)
        (by simpa [Table.pending_put_other same] using prepared)
  cases case with
  | quiet | insertDeliveryClaim | clearDeliveryClaim => exact held
  | insertEvent _ _ is => simp [is, Statement.finishes] at finishes
  | lockEvent other event _ found => exact put fun same => seen event (same ▸ found)
  | flushEvent writer other loaded assigned current is _ found =>
      subst is
      have processed : assigned.status = .processed := by simpa [Statement.finishes] using finishes
      refine put fun same => ?_
      have before := seen current (same ▸ found)
      simp only [OutboxEvent.flush, written, processed]
      split
      · exact before
      · rfl
  | commit =>
      exact fun e holds => absurd (Table.holder_commit_eq_some holds).1
        (Table.holder_commit_eq_some holds).2
  | rollback =>
      exact fun e holds => absurd (Table.holder_rollback_eq_some holds).1
        (Table.holder_rollback_eq_some holds).2

/-! ## Steps -/

/-- The condition under which claims keep workers apart. -/
abbrev Respecting (op : τ → OutboxOp) (t : τ) (s : Statement) (db : Db τ) : Prop :=
  ClaimsRespected (fun t => (op t).claimToken) t s db

/-- Both contracts hold, and no program delivers twice. -/
structure Secure (text : TextOps) (op : τ → OutboxOp)
    (distinct : ∀ t u token, (op t).claimToken = some token → (op u).claimToken = some token → t = u)
    (c : Config τ Statement Answer AppError (Db τ) Unit) : Prop where
  outbox : Contract.Sound.Safe (machine τ text) (outboxContract text fun t => (op t).claimToken)
    (fun _ _ _ => True) c
  claims : Contract.Sound.Safe (machine τ text)
    (deliveryContract text (fun t => (op t).claimToken) distinct) (fun _ _ _ => True) c
  ends : ∀ t s k, c.run t = some (.call s k) → EndsDelivery (.call s k)

theorem DeliveryStart.secure (h : DeliveryStart text op c) : Secure text op h.distinct c := by
  refine ⟨h.toOutboxStart.safe, ⟨⟨?_, ?_⟩, ?_⟩, ?_⟩
  · intro id u claim held
    simp [h.claimsUnlocked id] at held
  · intro id u claim held
    simp [h.claimsUnlocked id] at held
  · intro t s k running
    rw [Option.some.inj (running.symm.trans (h.operations t))]
    exact wp_mono (fun _ _ _ => trivial) ((op t).program_claims rfl
      ⟨fun id held => by simp [h.eventsUnlocked id] at held,
        fun id held => by simp [h.claimsUnlocked id] at held⟩)
  · intro t s k running
    rw [Option.some.inj (running.symm.trans (h.operations t))]
    exact (op t).program_endsDelivery

variable {distinct : ∀ t u token, (op t).claimToken = some token →
  (op u).claimToken = some token → t = u}

theorem Secure.step (h : Secure text op distinct a)
    (moves : (machine τ text).Step (Respecting op) a b) : Secure text op distinct b where
  outbox := (outboxTerms text fun t => (op t).claimToken).sound.step h.outbox
    (moves.mono fun _ _ _ permitted => permitted.1)
  claims := (deliveryTerms text (fun t => (op t).claimToken) distinct).sound.step h.claims moves
  ends := moves.programs (P := fun _ p => EndsDelivery p) (fun _ _ _ r ends _ => ends.2 r) h.ends

theorem Secure.consistent (h : Secure text op distinct a) :
    Consistent (fun t => (op t).claimToken) a.db := h.outbox.1

theorem Secure.owned (h : Secure text op distinct a) :
    ClaimsOwned (fun t => (op t).claimToken) a.db := h.claims.1

theorem Secure.shown (h : Secure text op distinct a) {k : Except AppError (Answer s) → Tx Unit}
    (running : a.run t = some (.call s k)) :
    DeliveryShown (fun t => (op t).claimToken) t s a.db :=
  (deliveryTerms text (fun t => (op t).claimToken) distinct).sound.shown h.claims running

/-- What the owner of a claim sees of the event is underway. -/
theorem Finishing.seen (h : Finishing op id t a) (secure : Secure text op distinct a) :
    ∀ e, a.db.events.view t id = some e → e.status.isUnderway = true := by
  intro e seen
  by_cases mine : a.db.events.holder id = some t
  · exact h.prepared e mine ((Table.view_of_held mine).symm.trans seen)
  · obtain ⟨claim, here, -⟩ := h.owns
    obtain ⟨f, there, processing⟩ := secure.consistent.claimed here
    rw [Table.view_of_not_held mine, there] at seen
    cases seen
    simp [processing, OutboxStatus.isUnderway]

/-- The worker goes on preparing nothing but a processed event. -/
theorem Finishing.stillPrepared (h : Finishing op id t a) (secure : Secure text op distinct a)
    (moves : (machine τ text).Step (Respecting op) a b) :
    ∀ e, b.db.events.holder id = some t → b.db.events.pending id = some e →
      e.status.isUnderway = true := by
  have kept {u : τ} {next : Db τ} (respects : Table.Respects u a.db.events next.events)
      (other : t ≠ u) : ∀ e, next.events.holder id = some t → next.events.pending id = some e →
        e.status.isUnderway = true := by
    intro e held prepared
    obtain ⟨before, same⟩ := (respects.keeps other).cell_of_held held
    exact h.prepared e before ((Table.pending_of_cell same).symm.trans prepared)
  cases moves with
  | @exec u s k r next running ok executed =>
      by_cases mine : t = u
      · subst mine
        exact (exec_case executed).underway (h.finishes s k running).1 (h.seen secure)
      · have needs := (secure.shown running).needs ok
        exact kept ((exec_case executed).claimsOwned secure.owned needs).2.1.events mine
  | fault => exact h.prepared
  | @crash u s k running =>
      by_cases mine : t = u
      · subst mine
        exact fun e held => absurd (Table.holder_rollback_eq_some held).1
          (Table.holder_rollback_eq_some held).2
      · exact kept (Table.respects_rollback u _) mine
  | env moved =>
      obtain ⟨clock, invites, rfl⟩ := moved
      exact h.prepared

/-- A step leaves the claim with its worker, or the worker commits the event as processed. -/
theorem Finishing.step (h : Finishing op id t a) (secure : Secure text op distinct a)
    (moves : (machine τ text).Step (Respecting op) a b) : HasDelivered op id b := by
  obtain ⟨claim, here, own⟩ := h.owns
  by_cases still : b.db.claims.committed id = some claim
  · have finishes := moves.programs
      (P := fun u (p : Tx Unit) => u = t → p.Only fun s : Statement => s.finishes = true)
      (fun _ _ _ r only _ same => (only same).2 r) fun u s k running same =>
        h.finishes s k (same ▸ running)
    exact .inr ⟨t, ⟨claim, still, own⟩, fun s k running => finishes t s k running rfl,
      h.stillPrepared secure moves⟩
  · have needed : ∀ u s k, a.run u = some (.call s k) → Respecting op u s a.db →
        ClaimNeeds (fun t => (op t).claimToken) u s a.db :=
      fun u s k running permitted => (secure.shown running).needs permitted
    rcases (claimDiscipline text (fun t => (op t).claimToken) distinct).step_commits secure.owned
      needed moves with same | ⟨u, k, r, running, executed, -⟩
    · exact absurd ((same id).trans here) still
    · have commits := (exec_commit executed).2
      have held : a.db.claims.holder id = some u := by
        by_contra other
        refine still ?_
        rw [commits]
        exact (Table.committed_of_cell (Table.cell_commit_of_not_held other)).trans here
      obtain rfl : u = t := distinct u t _ (secure.owned.committed held here) own
      obtain ⟨e, holds, prepared, left⟩ := (secure.shown running).commit rfl id claim held here
      have underway := h.prepared e holds prepared
      refine .inl ⟨e, ?_, ?_⟩
      · simp [commits, Db.commit, Table.view_of_held holds, prepared]
      · cases status : e.status <;> simp_all [OutboxStatus.isUnderway]

theorem HasDelivered.step (h : HasDelivered op id a) (secure : Secure text op distinct a)
    (moves : (machine τ text).Step (Respecting op) a b) : HasDelivered op id b := by
  rcases h with ⟨e, here, processed⟩ | ⟨t, finishing⟩
  · have run : (machine τ text).Reaches OutcomeIsCurrent a b :=
      .single (moves.mono fun _ _ _ permitted => permitted.1)
    obtain ⟨f, there, advances⟩ := advances_of_reaches secure.outbox run id e here
    exact .inl ⟨f, there, (advances.final (by rw [processed]; rfl)).trans processed⟩
  · exact finishing.step secure moves

/-- Who delivers is the first to do so. -/
theorem Secure.not_hasDelivered (h : Secure text op distinct a) (delivers : Delivers id a b) :
    ¬HasDelivered op id a := by
  obtain ⟨t, invite, rawToken, k, running, -⟩ := delivers
  obtain ⟨⟨claim, here, own⟩, -⟩ := (h.shown running).deliver id invite rawToken rfl
  rintro (⟨e, there, processed⟩ | ⟨u, ⟨claim', here', own'⟩, finishes, -⟩)
  · obtain ⟨f, same, processing⟩ := h.consistent.claimed here
    cases there.symm.trans same
    cases processed.symm.trans processing
  · cases here.symm.trans here'
    obtain rfl := distinct u t _ own' own
    exact absurd (finishes _ k running).1 (by simp [Statement.finishes])

theorem Secure.hasDelivered (h : Secure text op distinct a)
    (moves : (machine τ text).Step (Respecting op) a b) (delivers : Delivers id a b) :
    HasDelivered op id b := by
  obtain ⟨t, invite, rawToken, k, running, after⟩ := delivers
  obtain ⟨owns, unheld⟩ := (h.shown running).deliver id invite rawToken rfl
  have finishes := (h.ends t _ k running).1 rfl ()
  have moved : b.run t ≠ a.run t := by
    rw [after, running]
    intro same
    rw [Option.some.inj same] at finishes
    exact absurd finishes.1 (by simp [Statement.finishes])
  have same : b.db = a.db := by
    rcases moves.of_moved running moved with ⟨r, -, executed, -⟩ | ⟨e, -, same, -⟩ | ⟨-, gone⟩
    · exact (Prod.mk.inj (Option.some.inj executed)).2.symm
    · exact same
    · cases after.symm.trans gone
  refine .inr ⟨t, same ▸ owns, fun s k' later => ?_, fun e held => ?_⟩
  · rw [← Option.some.inj (after.symm.trans later)]
    exact finishes
  · rw [same] at held
    exact absurd held unheld

/-- The sink returns for an event at most once in every run in which writes hit the events
    they were meant for and only workers delete delivery claims. -/
theorem delivered_at_most_once (h : DeliveryStart text op start) :
    DeliveredAtMostOnce text op (Respecting op) start := by
  have secure {p : Posted τ} (run : Posted.Reaches text op (Respecting op) ⟨start, []⟩ p) :
      Secure text op h.distinct p.config := by
    induction run with
    | refl => exact h.secure
    | tail _ step ih => exact ih.step step.moved
  intro id a b c d before step delivers between
  have later : HasDelivered op id c.config := by
    induction between with
    | refl => exact (secure before).hasDelivered step.moved delivers
    | tail run step' ih => exact ih.step (secure ((before.tail step).trans run)) step'.moved
  exact fun _ twice => (secure ((before.tail step).trans between)).not_hasDelivered twice later

/-! ## Schedules -/

/-- A step of the clock, a statement of a client, or the commit of a dispatcher whose
    message for event `id` the broker takes. -/
inductive Move (τ : Type) where
  | tick
  | step (t : τ)
  | enqueue (t : τ) (id : Uuid)

/-- The broker takes the message of dispatcher `t`, which has claimed event `id`. -/
def enqueues (op : τ → OutboxOp) (t : τ) (id : Uuid) (db : Db τ) : Bool :=
  (op t).accepts id && db.events.holder id == some t &&
    (db.events.pending id).any (·.status == .processing)

namespace Posted

def move (text : TextOps) (op : τ → OutboxOp) (check : τ → Statement → Db τ → Bool)
    (p : Posted τ) : Move τ → Option (Posted τ)
  | .tick =>
      some ⟨⟨{ p.config.db with clock := p.config.db.clock + 1000 }, p.config.run⟩, p.messages⟩
  | .step t =>
      if (op t).message.all (p.messages.contains ·) then
        ((machine τ text).next check t p.config).map fun c => ⟨c, p.messages⟩
      else none
  | .enqueue t id =>
      match p.config.run t with
      | some (.call .commit k) =>
          if enqueues op t id p.config.db && check t .commit p.config.db then
            some ⟨⟨p.config.db.commit t, Function.update p.config.run t (some (k (.ok ())))⟩,
              id :: p.messages⟩
          else none
      | _ => none

/-- Make the listed moves, in order. -/
def drive (text : TextOps) (op : τ → OutboxOp) (check : τ → Statement → Db τ → Bool) :
    List (Move τ) → Posted τ → Option (Posted τ)
  | [], p => some p
  | m :: ms, p => (p.move text op check m).bind (drive text op check ms)

variable {check : τ → Statement → Db τ → Bool} {allowed : τ → Statement → Db τ → Prop}
  {p q : Posted τ}

theorem drive_append (ms ns : List (Move τ)) (p : Posted τ) :
    drive text op check (ms ++ ns) p =
      (drive text op check ms p).bind (drive text op check ns) := by
  induction ms generalizing p with
  | nil => rfl
  | cons m ms ih =>
      rw [List.cons_append, drive, drive, Option.bind_assoc]
      congr 1
      funext q
      exact ih q

theorem step_of_move (checked : ∀ t s db, check t s db = true → allowed t s db) {m : Move τ}
    (h : p.move text op check m = some q) : Posted.Step text op allowed p q := by
  cases m with
  | tick =>
      cases h
      exact ⟨.env ⟨_, _, rfl⟩, fun _ _ _ moved => absurd rfl moved, fun _ member => .inl member⟩
  | step t =>
      simp only [move] at h
      split at h
      · rename_i received
        obtain ⟨c, next, rfl⟩ := Option.map_eq_some_iff.mp h
        refine ⟨Machine.next_step checked next, fun u id message moved => ?_,
          fun _ member => .inl member⟩
        by_cases same : u = t
        · subst same
          simpa [message] using received
        · exact absurd (Machine.next_other next same) moved
      · cases h
  | enqueue t id =>
      simp only [move] at h
      split at h
      · rename_i k running
        split at h
        · rename_i passed
          cases h
          simp only [enqueues, Bool.and_eq_true, beq_iff_eq, Option.any_eq_true] at passed
          obtain ⟨⟨⟨accepts, held⟩, e, pending, processing⟩, passed⟩ := passed
          refine ⟨.exec running (checked _ _ _ passed) rfl, fun u id message moved => ?_, ?_⟩
          · by_cases same : u = t
            · subst same
              cases is : op u <;> simp_all [OutboxOp.accepts, OutboxOp.message]
            · exact absurd (Function.update_of_ne same _ _) moved
          · intro other member
            rcases List.mem_cons.mp member with rfl | old
            · exact .inr ⟨t, k, e, accepts, running, by simp, held, pending, processing⟩
            · exact .inl old
        · cases h
      · cases h

/-- Moves that can be made one after the other are a run. -/
theorem reaches_of_drive (checked : ∀ t s db, check t s db = true → allowed t s db)
    {ms : List (Move τ)} (h : drive text op check ms p = some q) :
    Posted.Reaches text op allowed p q := by
  induction ms generalizing p with
  | nil =>
      cases h
      exact .refl
  | cons m ms ih =>
      obtain ⟨middle, first, rest⟩ := Option.bind_eq_some_iff.mp h
      exact .head (step_of_move checked first) (ih rest)

/-- The event whose token client `t` hands to the sink next. -/
def atSink (t : τ) (p : Posted τ) : Option Uuid :=
  match p.config.run t with
  | some (.call (.deliver id _ _) _) => some id
  | _ => none

theorem delivers_of_move {t : τ} (at_ : p.atSink t = some id)
    (h : p.move text op check (.step t) = some q) : Delivers id p.config q.config := by
  unfold atSink at at_
  split at at_
  · rename_i other invite rawToken k running
    cases at_
    simp only [move, Machine.next, running] at h
    split at h
    · split at h
      · obtain ⟨c, moved, rfl⟩ := Option.map_eq_some_iff.mp h
        obtain ⟨out, executed, rfl⟩ := Option.map_eq_some_iff.mp moved
        cases executed
        exact ⟨t, invite, rawToken, k, running, by simp⟩
      · cases h
    · cases h
  · cases at_

/-- Moves up to a delivery, and the delivery. -/
theorem delivery_of_drive (checked : ∀ t s db, check t s db = true → allowed t s db)
    {ms : List (Move τ)} {t : τ} (at_ : (drive text op check ms p).bind (atSink t) = some id)
    (h : drive text op check (ms ++ [.step t]) p = some q) :
    ∃ a, Posted.Reaches text op allowed p a ∧ Posted.Step text op allowed a q ∧
      Delivers id a.config q.config := by
  obtain ⟨a, before, at_⟩ := Option.bind_eq_some_iff.mp at_
  rw [drive_append, before, Option.bind_some] at h
  obtain ⟨b, moved, last⟩ := Option.bind_eq_some_iff.mp h
  cases last
  exact ⟨a, reaches_of_drive checked before, step_of_move checked moved,
    delivers_of_move at_ moved⟩

end Posted

def exampleInvite : Invite where
  email := "a@example.com"
  organisationId := 3
  role := .member
  status := .pending
  tokenHash := plainText.sha256 "token"
  expiresAt := none
  revokedAt := none
  revokedByUserId := none
  updatedAt := 0

/-- An outbox with one event, the delivery of an invite. -/
def inviteDb (τ : Type) : Db τ where
  events := .ofRows [(1, { exampleEvent with
    eventType := "invite.created"
    payload := .dict [("email", .text "a@example.com"), ("encrypted_raw_token", .text "token")] })]
  claims := .ofRows []
  invites := .ofRows [(2, exampleInvite)]
  clock := 0

/-- Delivery of invite 2, with tokens encrypted by the identity. -/
def inviteOps : DeliveryOps where
  parseInviteOutboxPayload
    | .dict items => match items.lookup "encrypted_raw_token" with
      | some (.text token) => some ⟨2, token⟩
      | _ => none
    | .other _ => none
  inviteDeliveryEnabled := true
  keyError := none
  decryptToken := some

/-- Two dispatchers whose messages the broker takes, one whose message it refuses, a recovery
    of stale events, and two workers. -/
inductive Client where
  | dispatcher | recovery | refused | dispatcher' | worker | worker'
  deriving DecidableEq

def deliveryOp : Client → OutboxOp
  | .dispatcher | .dispatcher' => .dispatch 1 fun _ => none
  | .recovery => .recover 600 10
  | .refused => .dispatch 1 fun _ => some "Error"
  | .worker => .work 1 "first" inviteOps
  | .worker' => .work 1 "second" inviteOps

def deliveryStart : Config Client Statement Answer AppError (Db Client) Unit :=
  ⟨inviteDb _, fun t => some ((deliveryOp t).program plainText)⟩

theorem deliveryStart_start : DeliveryStart plainText deliveryOp deliveryStart where
  eventsUnlocked := Table.holder_ofRows _
  claimsUnlocked := Table.holder_ofRows _
  eventsOk {id e} here := by
    have member := Table.lookup_mem ((Table.committed_ofRows _ _).symm.trans here)
    simp only [List.mem_singleton, Prod.mk.injEq] at member
    rw [member.2]
    exact ⟨by simp [exampleEvent], by decide, by decide⟩
  claimed {id claim} here := by simp [deliveryStart, inviteDb] at here
  operations _ := rfl
  distinct t u token first second := by
    have same := first.trans second.symm
    cases t <;> cases u <;> simp [deliveryOp, OutboxOp.claimToken] at first same ⊢

/-- `n` statements of client `t`. -/
def take (n : Nat) (t : Client) : List (Move Client) := List.replicate n (.step t)

/-- A dispatcher's message starts a worker, which delivers. -/
theorem delivered_at_most_once_example :
    (∃ a b, Posted.Reaches plainText deliveryOp (Respecting deliveryOp) ⟨deliveryStart, []⟩ a ∧
      Posted.Step plainText deliveryOp (Respecting deliveryOp) a b ∧
      Delivers 1 a.config b.config) ∧
    DeliveredAtMostOnce plainText deliveryOp (Respecting deliveryOp) deliveryStart := by
  refine ⟨?_, delivered_at_most_once deliveryStart_start⟩
  let check (t : Client) (s : Statement) (db : Db Client) : Bool :=
    outcomeIsCurrent t s db && onlyWorkersClear (fun t => (deliveryOp t).claimToken) t s db
  let moves := take 5 .dispatcher ++ [.enqueue .dispatcher 1] ++ take 10 .worker
  have at_ : (Posted.drive plainText deliveryOp check moves ⟨deliveryStart, []⟩).bind
      (Posted.atSink .worker) = some 1 := by decide
  have delivered : (Posted.drive plainText deliveryOp check (moves ++ [.step .worker])
      ⟨deliveryStart, []⟩).isSome = true := by decide
  obtain ⟨b, delivered⟩ := Option.isSome_iff_exists.mp delivered
  obtain ⟨a, run⟩ := Posted.delivery_of_drive
    (fun t s db passed => Bool.and_eq_true_iff.mp passed) at_ delivered
  exact ⟨a, b, run⟩

/-- Recovery finds no delivery claim: the workers have written their outcomes by then. -/
def outcomesTimely (op : τ → OutboxOp) (t : τ) (s : Statement) (db : Db τ) : Bool :=
  match op t, s with
  | .recover _ _, .clearDeliveryClaim id => (db.claims.committed id).isNone
  | _, _ => true

/-- The message of the first dispatcher is late: the event is recovered and claimed again, and
    the broker refuses it. The release reads it; then the late message starts a worker, which
    delivers; then the release deletes the worker's claim. The worker cannot report, the event
    is due again, and the next message starts a worker that delivers once more. -/
theorem release_of_delivered_event :
    ¬∀ (op : Client → OutboxOp) (start : Config Client Statement Answer AppError (Db Client) Unit),
      DeliveryStart plainText op start →
      DeliveredAtMostOnce plainText op (fun t s db => outcomesTimely op t s db = true) start := by
  intro claim
  let first : List (Move Client) := take 5 .dispatcher ++ [.enqueue .dispatcher 1, .tick] ++
    take 7 .recovery ++ [.tick] ++ take 7 .refused ++ take 10 .worker
  let second : List (Move Client) := take 4 .refused ++ take 2 .worker ++ [.tick] ++
    take 5 .dispatcher' ++ [.enqueue .dispatcher' 1] ++ take 10 .worker'
  let drive := Posted.drive plainText deliveryOp (outcomesTimely deliveryOp)
  have at_ : (drive first ⟨deliveryStart, []⟩).bind (Posted.atSink .worker) = some 1 := by decide
  have atAgain : ((drive (first ++ [.step .worker]) ⟨deliveryStart, []⟩).bind (drive second)).bind
      (Posted.atSink .worker') = some 1 := by decide
  have again : ((drive (first ++ [.step .worker]) ⟨deliveryStart, []⟩).bind
      (drive (second ++ [.step .worker']))).isSome = true := by decide
  obtain ⟨d, again⟩ := Option.isSome_iff_exists.mp again
  obtain ⟨b, delivered, again⟩ := Option.bind_eq_some_iff.mp again
  rw [delivered, Option.bind_some] at atAgain
  obtain ⟨a, before, step, delivers⟩ := Posted.delivery_of_drive (fun _ _ _ passed => passed)
    at_ delivered
  obtain ⟨c, between, step', delivers'⟩ := Posted.delivery_of_drive (fun _ _ _ passed => passed)
    atAgain again
  exact claim deliveryOp deliveryStart deliveryStart_start 1 a b c d before step delivers between
    step' delivers'

end SaasTemplate.Outbox
