import SaasTemplate.Audit.Minimisers

/-! # No minimiser writes an event on hold

A retention update looks at the hold again under the row lock, and the erasure's provider
has looked at the rows it locked. So the version that a minimiser has prepared of a row
whose committed hold is active at its reference time is that committed version, up to and
including the commit.
-/

set_option linter.unusedSectionVars false

namespace SaasTemplate.Audit

open SaasTemplate.Isolation SaasTemplate.Isolation.Prog

variable {τ : Type} [DecidableEq τ] {t u : τ} {s : Statement} {db db' : Db τ}
  {reference : τ → Option Time}

/-! ## What a statement does -/

/-- A statement on row `k` that finds `row` and leaves `next`. -/
inductive RowWrite : Statement → Uuid → AuditEvent → AuditEvent → Prop where
  | anonymise {query : RetentionQuery} {k : Uuid} {row : AuditEvent} :
      query.holds row = true → RowWrite (.anonymise query k) k row row.anonymised
  | lock {snapshot : AuditTargetSnapshot} {k : Uuid} {row : AuditEvent} :
      RowWrite (.lockSubjectEvent snapshot k) k row row
  | flush {k : Uuid} {loaded assigned row : AuditEvent} :
      RowWrite (.flushEvent k loaded assigned) k row (loaded.flush assigned row)
  | hold {k : Uuid} {legalHoldUntil : Option Time} {row : AuditEvent} :
      RowWrite (.setLegalHold k legalHoldUntil) k row { row with legalHoldUntil }

/-- The effect of statement `s` of `t` on the events, and when it has it. -/
inductive Case (t : τ) (s : Statement) (db : Db τ) : Db τ → Prop where
  | quiet : s ≠ .commit → Case t s db db
  | write (k : Uuid) (row next : AuditEvent) : RowWrite s k row next →
      db.events.view t k = some row → db.events.free t k = true →
      Case t s db { db with events := db.events.put t k (some next) }
  | insert (k : Uuid) (e : AuditEvent) : s = .insertEvent k e → db.events.view t k = none →
      db.events.free t k = true → Case t s db { db with events := db.events.put t k (some e) }
  | commit : s = .commit → Case t s db { db with events := db.events.commit t }
  | rollback : s = .rollback → Case t s db { db with events := db.events.rollback t }

theorem updateEvent_cases {k : Uuid} {f : AuditEvent → Option AuditEvent}
    {out : Except AppError (Option AuditEvent)} (h : updateEvent t k f db = some (out, db')) :
    db' = db ∨ ∃ row next, db.events.view t k = some row ∧ f row = some next ∧
      db.events.free t k = true ∧ db' = { db with events := db.events.put t k (some next) } := by
  obtain ⟨⟨out', T⟩, updated, is⟩ := Option.map_eq_some_iff.mp h
  cases is
  rcases Table.update_cases updated with ⟨rfl, -⟩ | ⟨row, next, seen, changed, ok, rfl, -⟩
  · exact .inl rfl
  · exact .inr ⟨row, next, seen, changed, ok.free, rfl⟩

/-- Every statement has one of these effects. -/
theorem exec_case {r : Except AppError (Answer s)} (h : exec t s db = some (r, db')) :
    Case t s db db' := by
  cases s with
  | candidateIds | matchingIds | subjectEventIds =>
      cases h
      exact .quiet nofun
  | anonymise query k =>
      obtain ⟨out, updated, is⟩ := Option.map_eq_some_iff.mp h
      cases is
      rcases updateEvent_cases updated with same | ⟨row, next, seen, changed, free, same⟩
      · rw [same]
        exact .quiet nofun
      · rw [same]
        split at changed
        · rename_i holds
          cases changed
          exact .write k row _ (.anonymise holds) seen free
        · cases changed
  | lockSubjectEvent snapshot k =>
      obtain ⟨⟨out, T⟩, locked, is⟩ := Option.map_eq_some_iff.mp h
      cases is
      rcases Table.lockRow_cases locked with ⟨rfl, -⟩ | ⟨row, seen, -, free, rfl, -⟩
      · exact .quiet nofun
      · exact .write k row row .lock seen free
  | flushEvent k loaded assigned =>
      obtain ⟨out, updated, is⟩ := Option.map_eq_some_iff.mp h
      cases is
      rcases updateEvent_cases updated with same | ⟨row, next, seen, changed, free, same⟩
      · rw [same]
        exact .quiet nofun
      · rw [same]
        cases changed
        exact .write k row _ .flush seen free
  | setLegalHold k legalHoldUntil =>
      obtain ⟨out, updated, is⟩ := Option.map_eq_some_iff.mp h
      cases is
      rcases updateEvent_cases updated with same | ⟨row, next, seen, changed, free, same⟩
      · rw [same]
        exact .quiet nofun
      · rw [same]
        cases changed
        exact .write k row _ .hold seen free
  | insertEvent k e =>
      obtain ⟨⟨out, T⟩, inserted, is⟩ := Option.map_eq_some_iff.mp h
      cases is
      rcases Table.insert_cases inserted with ⟨rfl, -⟩ | ⟨fresh, ok, rfl, -⟩
      · exact .quiet nofun
      · exact .insert k e rfl fresh ok.free
  | commit =>
      cases h
      exact .commit rfl
  | rollback =>
      cases h
      exact .rollback rfl

/-! ## The hold is spared -/

/-- A minimiser with reference time `now` leaves a row alone whose committed hold is active. -/
def Spares (reference : τ → Option Time) (t : τ) (r s : AuditEvent) : Prop :=
  ∀ now, reference t = some now → r.holdActive now = true → s = r

/-- Every prepared version spares the hold of the committed one. -/
def HoldsSpared (reference : τ → Option Time) (db : Db τ) : Prop :=
  db.events.Prepared (Spares reference)

/-- What a statement of `t` needs to spare the holds. -/
def Needs (reference : τ → Option Time) (t : τ) (s : Statement) (db : Db τ) : Prop :=
  match s with
  | .anonymise query _ => ∀ now, reference t = some now → query.now = now
  | .flushEvent k _ _ => ∀ now, reference t = some now → ∀ r, db.events.committed k = some r →
      r.holdActive now = false
  | .setLegalHold _ _ => reference t = none
  | _ => True

/-- Whatever a minimiser sees of a row on hold is the committed version. -/
theorem HoldsSpared.view (spared : HoldsSpared reference db) {k : Uuid} {r : AuditEvent} {now : Time}
    (here : db.events.committed k = some r) (minimiser : reference t = some now)
    (active : r.holdActive now = true) : db.events.view t k = some r := by
  obtain ⟨s, seen, rfl | ⟨-, spares⟩⟩ := Table.Prepared.view spared here t
  · exact seen
  · rw [seen, spares now minimiser active]

theorem RowWrite.spares {k : Uuid} {row next r : AuditEvent} (write : RowWrite s k row next)
    (spared : HoldsSpared reference db) (needs : Needs reference t s db)
    (seen : db.events.view t k = some row) (here : db.events.committed k = some r) :
    Spares reference t r next := by
  intro now minimiser active
  have same : row = r := Option.some.inj (seen.symm.trans (spared.view here minimiser active))
  subst same
  cases write with
  | @anonymise query _ _ holds =>
      have released := RetentionQuery.released holds
      rw [needs now minimiser] at released
      simp [AuditEvent.holdActive_eq, released] at active
  | lock => rfl
  | flush =>
      rw [needs now minimiser row here] at active
      cases active
  | hold =>
      rw [show reference t = none from needs] at minimiser
      cases minimiser

theorem Case.spared (case : Case t s db db') (needs : Needs reference t s db)
    (spared : HoldsSpared reference db) : HoldsSpared reference db' := by
  cases case with
  | quiet => exact spared
  | write k row next write seen =>
      exact Table.Prepared.put spared fun r here => write.spares spared needs seen here
  | insert k e is fresh =>
      refine Table.Prepared.put spared fun r here => ?_
      obtain ⟨s, seen, -⟩ := Table.Prepared.view spared here t
      cases fresh.symm.trans seen
  | commit => exact Table.Prepared.commit spared t
  | rollback => exact Table.Prepared.rollback spared t

theorem Case.respects (case : Case t s db db') : db.events.Respects t db'.events := by
  cases case with
  | quiet => exact .refl t db.events
  | write k row next write seen free => exact Table.respects_put free
  | insert k e is fresh free => exact Table.respects_put free
  | commit => exact Table.respects_commit t db.events
  | rollback => exact Table.respects_rollback t db.events

/-- Nothing has been committed. -/
def Uncommitted (db db' : Db τ) : Prop := ∀ k, db'.events.committed k = db.events.committed k

theorem Case.uncommitted (case : Case t s db db') (open_ : s ≠ .commit) : Uncommitted db db' := by
  intro k
  cases case with
  | commit is => exact absurd is open_
  | _ => simp

/-- The audit table as a store that clients use in transactions. -/
def auditDiscipline (reference : τ → Option Time) : Discipline (machine τ) .commit .rollback where
  inv := HoldsSpared reference
  moves t db db' := db.events.Respects t db'.events
  stays t db db' := db.events.Keeps t db'.events
  unchanged := Uncommitted
  needs := Needs reference
  stays_refl t db := .refl t db.events
  stays_trans := Table.Keeps.trans
  stays_of_moves other moved := moved.keeps other
  exec spared needs executed :=
    have case := exec_case executed
    ⟨case.spared needs spared, case.respects, case.uncommitted⟩
  crash {t db} spared :=
    have case : Case t .rollback db { db with events := db.events.rollback t } := .rollback rfl
    have needs : Needs reference t .rollback db := trivial
    ⟨case.spared needs spared, case.respects, case.uncommitted nofun⟩
  env _ moved := moved.elim
  unchanged_refl _ _ := rfl
  differ := nofun
  rollback_needs _ _ := trivial
  rollback_ok executed := by
    cases executed
    exact ⟨(), rfl⟩
  certain := by simp [machine]

/-- Each client shows what its statements need. -/
def auditTerms (reference : τ → Option Time) : Terms (auditDiscipline reference) where
  promise _ _ _ := True
  allowed _ _ _ := True
  shows := Needs reference
  unbroken _ _ _ _ := trivial
  enough _ _ shown := shown
  rollback_shows _ _ := trivial

abbrev auditContract (reference : τ → Option Time) : Contract τ Statement (Db τ) :=
  (auditTerms reference).contract

/-! ## Every client keeps the contract -/

/-- Statements that need nothing of the database. -/
def Statement.Plain (reference : τ → Option Time) (t : τ) (s : Statement) : Prop :=
  s ≠ .commit ∧ ∀ db : Db τ, Needs reference t s db

/-- A transaction of plain statements. -/
theorem wp_plain {α : Type} {body : Tx α} (only : body.Only (Statement.Plain reference t)) :
    wp (machine τ) (auditContract reference) t (transaction .commit .rollback body)
      (fun _ _ => True) db :=
  Terms.wp_transactional (A := fun _ => True)
    (transactional nofun (fun plain => plain.1 rfl) only) (fun _ _ _ _ _ => trivial)
    (fun _ db is _ _ => by
      rcases is with rfl | plain
      · exact trivial
      · exact plain.2 db)
    (fun _ _ _ _ _ _ _ _ _ => trivial)
    (fun _ _ _ _ _ executed => by
      cases executed
      exact ⟨⟨(), rfl⟩, trivial⟩) trivial

theorem only_anonymiseRows {query : RetentionQuery} {limit : Nat}
    (now : ∀ now, reference t = some now → query.now = now) :
    (anonymiseRows query limit).Only (Statement.Plain reference t) := by
  refine only_bind (only_stmt.mpr ⟨nofun, fun _ => trivial⟩) fun ids => ?_
  split
  · exact only_pure 0
  · refine only_bind (only_stmt.mpr ⟨nofun, fun _ => trivial⟩) fun found => ?_
    exact only_bind (only_collect fun id _ => only_stmt.mpr ⟨nofun, fun _ => now⟩)
      fun rows => only_pure _

/-- The rows that the provider has loaded, under their locks. -/
def Loaded (t : τ) (rows : List (Uuid × AuditEvent)) (db : Db τ) : Prop :=
  ∀ row ∈ rows, db.events.holder row.1 = some t ∧ db.events.committed row.1 = some row.2

/-- The transaction has not written anything yet. -/
def Unwritten (t : τ) (db : Db τ) : Prop := ∀ k, db.events.view t k = db.events.committed k

theorem loaded_stable (rows : List (Uuid × AuditEvent)) :
    (auditContract reference).Stable t (Loaded t rows) := by
  intro db db' loaded moved _ row member
  obtain ⟨held, here⟩ := loaded row member
  have same := moved.stays.cell held
  exact ⟨(moved.stays.held_iff).mpr held, by rwa [Table.committed_of_cell same]⟩

theorem unwritten_stable : (auditContract reference).Stable t (Unwritten t) := by
  intro db db' unwritten moved spared k
  by_cases held : db'.events.holder k = some t
  · obtain ⟨before, same⟩ := moved.stays.cell_of_held held
    rw [Table.view_of_held held, Table.pending_of_cell same, Table.committed_of_cell same,
      ← unwritten k, Table.view_of_held before]
  · exact Table.view_of_not_held held

theorem Loaded.put {rows : List (Uuid × AuditEvent)} {k : Uuid} {r : Option AuditEvent}
    (loaded : Loaded t rows db) :
    Loaded t rows { db with events := db.events.put t k r } := by
  intro row member
  obtain ⟨held, here⟩ := loaded row member
  refine ⟨?_, by simpa using here⟩
  by_cases same : row.1 = k
  · simp [same]
  · rwa [Table.holder_put_other same]

/-- Locking one more row of the subject. -/
theorem triple_lock (snapshot : AuditTargetSnapshot) (id : Uuid) (rows : List (Uuid × AuditEvent)) :
    Triple (machine τ) (auditContract reference) t
      (fun db => Unwritten t db ∧ Loaded t rows db)
      (do
        let row ← sql (.lockSubjectEvent snapshot id)
        pure (row.map fun row => (id, row)))
      fun row db => Unwritten t db ∧ Loaded t (rows ++ row.toList) db := by
  refine Triple.bind (B := fun out db => Unwritten t db ∧
      Loaded t (rows ++ (out.map fun row => (id, row)).toList) db) ?_
    fun out => Triple.pure fun db held => held
  refine Terms.triple_stmt (unwritten_stable.and (loaded_stable rows)) nofun
    (fun _ _ _ => trivial) ?_
  rintro db out db' ⟨unwritten, loaded⟩ spared - executed
  obtain ⟨⟨found, T⟩, locked, is⟩ := Option.map_eq_some_iff.mp executed
  cases is
  rcases Table.lockRow_cases locked with ⟨rfl, rfl, -⟩ | ⟨row, seen, -, free, rfl, rfl⟩
  · exact ⟨unwritten, by simpa using loaded⟩
  · have here : db.events.committed id = some row := (unwritten id).symm.trans seen
    refine ⟨fun k => ?_, fun other member => ?_⟩
    · by_cases same : k = id
      · simp [same, here]
      · rw [Table.view_put_other same, Table.committed_put]
        exact unwritten k
    · rcases List.mem_append.mp member with old | new
      · exact loaded.put other old
      · cases List.mem_singleton.mp new
        exact ⟨by simp, by simpa using here⟩

/-- The flush of a loaded row whose hold is not active. -/
theorem triple_flush {rows : List (Uuid × AuditEvent)} {now : Time}
    (minimiser : reference t = some now) (snapshot : AuditTargetSnapshot)
    {row : Uuid × AuditEvent} (member : row ∈ rows) (released : row.2.holdActive now = false) :
    Triple (machine τ) (auditContract reference) t (Loaded t rows) (flushMinimised snapshot row)
      fun _ => Loaded t rows := by
  unfold flushMinimised
  split
  · exact Triple.pure fun db held => held
  · refine Terms.triple_stmt (loaded_stable rows) nofun (fun db loaded _ => ?_) ?_
    · intro now' same r here
      cases minimiser.symm.trans same
      cases (loaded row member).2.symm.trans here
      exact released
    · intro db out db' loaded spared _ executed
      obtain ⟨out', updated, is⟩ := Option.map_eq_some_iff.mp executed
      obtain rfl : out'.2 = db' := congrArg Prod.snd is
      rcases updateEvent_cases updated with same | ⟨_, next, -, -, -, same⟩
      · rwa [same]
      · rw [same]
        exact loaded.put

theorem triple_lockSubjectAuditEvents (snapshot : AuditTargetSnapshot) :
    Triple (machine τ) (auditContract reference) t (Unwritten t) (lockSubjectAuditEvents snapshot)
      (Loaded t) := by
  refine Triple.bind (B := fun _ => Unwritten t) ?_ fun ids => ?_
  · refine Terms.triple_stmt unwritten_stable nofun (fun _ _ _ => trivial) ?_
    intro db out db' unwritten spared _ executed
    cases executed
    exact unwritten
  · refine Triple.weaken (Triple.collect (A := fun rows db => Unwritten t db ∧ Loaded t rows db)
      (fun id _ rows => triple_lock snapshot id rows) []) ?_ ?_
    · exact fun db unwritten => ⟨unwritten, fun row member => by cases member⟩
    · exact fun rows db held => held.2

/-- The provider refuses when a row it has locked is on hold. -/
theorem wp_auditProvider (target : Except AppError AuditTargetSnapshot) {now : Time}
    (minimiser : reference t = some now) (start : Unwritten t db) :
    wp (machine τ) (auditContract reference) t (auditProvider target now)
      (fun _ _ => True) db := by
  have ready : ∀ _ : AuditErasureResult, (auditContract reference).Stable t fun _ => True :=
    fun _ _ _ _ _ _ => trivial
  refine Terms.wp_block (A := Unwritten t) ?_ ready (fun _ _ _ _ => trivial)
    (fun _ _ _ _ _ _ _ => ⟨trivial, fun _ _ => trivial⟩) (fun _ _ _ _ _ _ => trivial) start
  refine Triple.bind (B := fun _ => Unwritten t) ?_ fun snapshot => ?_
  · intro db held a same
    exact held
  refine (triple_lockSubjectAuditEvents snapshot).bind fun rows => ?_
  refine Triple.raiseIf.bind fun _ => Triple.assume fun fine => ?_
  have released : ∀ row ∈ rows, row.2.holdActive now = false := by
    simpa using fine
  refine Triple.bind (B := fun _ => Loaded t rows) ?_ fun _ => Triple.pure fun _ _ => trivial
  exact Triple.forEach fun row member =>
    triple_flush minimiser snapshot member (released row member)

theorem AuditOp.wp_program (op : AuditOp) (mine : reference t = op.referenceTime)
    (start : Unwritten t db) :
    wp (machine τ) (auditContract reference) t op.program (fun _ _ => True) db := by
  cases op with
  | maintenancePass settings now limit =>
      refine Terms.wp_result (wp_plain (only_anonymiseRows fun now' same => ?_))
      exact Option.some.inj (mine.symm.trans same)
  | retentionService settings now =>
      refine Terms.wp_result (wp_plain (only_bind (only_collect fun query member => ?_)
        fun counts => only_pure _))
      refine only_bind (only_anonymiseRows fun now' same => ?_) fun count => only_pure _
      cases mine.symm.trans same
      simp only [retentionQueries, List.mem_cons, List.not_mem_nil, or_false] at member
      rcases member with rfl | rfl | rfl | rfl <;> rfl
  | auditProvider target now => exact Terms.wp_result (wp_auditProvider target mine start)
  | changeLegalHolds changes =>
      exact wp_plain (only_forEach fun change _ => only_stmt.mpr ⟨nofun, fun _ => mine⟩)
  | recordEvents events =>
      exact wp_plain (only_forEach fun event _ => only_stmt.mpr ⟨nofun, fun _ => trivial⟩)

/-! ## Runs -/

/-- Every client is about to begin its transaction, and no event is locked. -/
structure AuditStart (op : τ → AuditOp) (c : Config τ Statement Answer AppError (Db τ) Unit) :
    Prop where
  unlocked : ∀ k, c.db.events.holder k = none
  programs : ∀ t, c.run t = some (op t).program

section Runs

variable {op : τ → AuditOp} {start c d : Config τ Statement Answer AppError (Db τ) Unit}

theorem AuditStart.safe (h : AuditStart op start) :
    Contract.Sound.Safe (machine τ) (auditContract fun t => (op t).referenceTime)
      (fun _ _ _ => True) start := by
  refine ⟨?_, fun t s k running => ?_⟩
  · intro k t r held _
    simp [h.unlocked k] at held
  · have is := Option.some.inj ((h.programs t).symm.trans running)
    rw [← is]
    exact (op t).wp_program rfl fun k => Table.view_of_not_held (by simp [h.unlocked k])

/-- A step of a minimiser, its commit included, leaves every event as it was whose committed
    hold is active at its reference time. -/
theorem legal_hold_respected (h : AuditStart op start)
    (run : (machine τ).Reaches (fun _ _ _ => True) start c)
    (step : (machine τ).Step (fun _ _ _ => True) c d) {t : τ} (moved : d.run t ≠ c.run t)
    {now : Time} (minimiser : (op t).referenceTime = some now) {k : Uuid} {e : AuditEvent}
    (here : c.db.events.committed k = some e) (active : e.holdActive now = true) :
    d.db.events.committed k = some e := by
  have safe := ((auditTerms fun t => (op t).referenceTime).sound.invariant h.safe run)
  have spared : HoldsSpared (fun t => (op t).referenceTime) c.db := safe.1
  cases step with
  | @exec u s k' r db' running _ executed =>
      have mine : t = u := by
        by_contra other
        exact moved (Function.update_of_ne other _ _)
      subst mine
      have case := exec_case executed
      by_cases commits : s = .commit
      · cases case with
        | commit =>
            rw [Table.committed_commit]
            exact spared.view here minimiser active
        | quiet open_ => exact absurd commits open_
        | write k row next write => subst commits; cases write
        | insert k e is => cases commits.symm.trans is
        | rollback is => cases commits.symm.trans is
      · exact (case.uncommitted commits k).trans here
  | fault => exact here
  | crash => simpa [machine] using here
  | env => exact absurd rfl moved

end Runs

/-! ## A hold placed between the selection and the update -/

/-- An old event of user 7. -/
def oldEvent : AuditEvent where
  actorUserId := some 7
  category := .tenant
  action := "membership_removed"
  targetType := .membership
  targetId := some 3
  reason := none
  metadataJson := .stored none
  ipAddress := none
  userAgent := none
  legalHoldUntil := none
  createdAt := 0

/-- `true` anonymises what is older than a day at time 100 days, `false` places a hold. -/
def exampleOp : Bool → AuditOp
  | true => .maintenancePass ⟨1, 1, 1, 10⟩ (timedelta 100) 10
  | false => .changeLegalHolds [(1, some (timedelta 200))]

def exampleStart : Config Bool Statement Answer AppError (Db Bool) Unit :=
  ⟨⟨.ofRows [(1, oldEvent), (2, oldEvent)]⟩, fun t => some (exampleOp t).program⟩

theorem exampleStart_start : AuditStart exampleOp exampleStart :=
  ⟨Table.holder_ofRows _, fun _ => rfl⟩

/-- The actors and holds of both events. -/
def actorsAndHolds (c : Config Bool Statement Answer AppError (Db Bool) Unit) :
    List (Option (Option Uuid × Option Time)) :=
  [1, 2].map fun k => (c.db.events.committed k).map fun e => (e.actorUserId, e.legalHoldUntil)

/-- What a configuration shows, and what it shows after one more step of the minimiser. -/
def beforeAndAfter (c : Config Bool Statement Answer AppError (Db Bool) Unit) :
    (List (Option (Option Uuid × Option Time)) × Bool) ×
      Option (List (Option (Option Uuid × Option Time)) × Bool) :=
  let shown := fun c : Config Bool Statement Answer AppError (Db Bool) Unit =>
    (actorsAndHolds c, (c.result true).isSome)
  (shown c, ((machine Bool).next (fun _ _ _ => true) true c).map shown)

/-- The hold is placed after the selection: the commit anonymises only the other event. -/
theorem legal_hold_respected_example :
    ∃ c d, (machine Bool).Reaches (fun _ _ _ => True) exampleStart c ∧
      (machine Bool).Step (fun _ _ _ => True) c d ∧
      actorsAndHolds c = [some (some 7, some (timedelta 200)), some (some 7, none)] ∧
      actorsAndHolds d = [some (some 7, some (timedelta 200)), some (none, none)] ∧
      d.db.events.committed 1 = c.db.events.committed 1 := by
  have played : ((machine Bool).play (fun _ _ _ => true)
      [true, true, false, false, true, true] exampleStart).map beforeAndAfter =
        some (([some (some 7, some (timedelta 200)), some (some 7, none)], false),
          some ([some (some 7, some (timedelta 200)), some (none, none)], true)) := by rfl
  have checked : ∀ (t : Bool) (s : Statement) (db : Db Bool), true = true → True :=
    fun _ _ _ _ => trivial
  obtain ⟨c, run, seen⟩ := Machine.run_of_play checked played
  obtain ⟨before, after⟩ := Prod.mk.inj seen
  obtain ⟨actors, running⟩ := Prod.mk.inj before
  obtain ⟨d, next, shown⟩ := Option.map_eq_some_iff.mp after
  obtain ⟨actors', ended⟩ := Prod.mk.inj shown
  have moved : d.run true ≠ c.run true := by
    intro same
    rw [Config.result, same, ← Config.result, running] at ended
    cases ended
  have step := Machine.next_step checked next
  refine ⟨c, d, run, step, actors, actors', ?_⟩
  obtain ⟨first, -⟩ := List.cons.inj actors
  obtain ⟨e, here, is⟩ := Option.map_eq_some_iff.mp first
  have active : e.holdActive (timedelta 100) = true := by
    rw [AuditEvent.holdActive, (Prod.mk.inj is).2]
    decide
  rw [here, legal_hold_respected exampleStart_start run step moved rfl here active]

end SaasTemplate.Audit
