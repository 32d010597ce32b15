import SaasTemplate.Privacy.RetentionQueries

/-! # Retention passes converge

Each pass gives every row that its query finds a version that no later pass finds, and leaves
the rows that are not due as they are; so the queue gets shorter by a whole batch each time.
-/

namespace SaasTemplate.Privacy.RetentionQueries

open SaasTemplate.Isolation.LimitedPass SaasTemplate.Privacy.Retention SaasTemplate.Sql
open SaasTemplate.Audit (timedelta)
open SaasTemplate.Outbox (OutboxEvent JsonValue Payload)
open SaasTemplate.Outbox.Scrubbers (needsRetention applyOutboxRetention privacyRetentionMarker
  scrubbedPayload isRetentionScrubbed)
open SaasTemplate.Tenancy (Invite scrubbedInviteEmail scrubbedInviteTokenHash isScrubbedInvite
  scrubbedInviteEmailDomain scrubbedInviteTokenPrefix startsWith_scrubbedInviteTokenHash
  isScrubbedInvite_of_tombstones)

/-! ## What is promised -/

section Promise

variable {T ρ : Type}

/-- A pass with its write clock and its limit, on a table. -/
abbrev Pass (T : Type) := Time → Nat → T → Except AppError (Nat × T)

/-- One pass after the other. -/
def runPasses (pass : Pass T) : List (Time × Nat) → T → Except AppError T
  | [], table => .ok table
  | call :: calls, table => do
      let out ← pass call.1 call.2 table
      runPasses pass calls out.2

/-- The query finds the rows `selected`, the first of those that are `eligible`; rows that are
not `due` are not for the pass. -/
structure Query (T ρ : Type) where
  rows : T → List (Uuid × ρ)
  due : ρ → Bool
  eligible : ρ → Bool
  selected : Nat → T → List (Uuid × ρ)

/-- The promise of the passes that start from a table. -/
structure Converges (query : Query T ρ) (pass : Pass T) (table : T) : Prop where
  succeeds : ∀ calls, ∃ after, runPasses pass calls table = .ok after
  counts : ∀ clock limit out, pass clock limit table = .ok out →
    out.1 = (query.selected limit table).length
  changes : ∀ clock limit out, pass clock limit table = .ok out →
    ∀ row ∈ query.selected limit table, ∃ r, r ≠ row.2 ∧ (row.1, r) ∈ query.rows out.2
  settles : ∀ clock limit out, pass clock limit table = .ok out →
    ∀ calls later, runPasses pass calls out.2 = .ok later → ∀ row ∈ query.selected limit table,
      ∀ limit', row.1 ∉ (query.selected limit' later).map (·.1)
  untouched : ∀ calls after, runPasses pass calls table = .ok after →
    ∀ row ∈ query.rows table, query.due row.2 = false → row ∈ query.rows after
  drains : ∀ calls after limit, 1 ≤ limit → (∀ call ∈ calls, call.2 = limit) →
    (((query.rows table).filter fun row => query.eligible row.2).length + limit - 1) / limit ≤
      calls.length →
    runPasses pass calls table = .ok after →
    ∀ row ∈ query.rows after, query.eligible row.2 = false

/-- How the passes of a table come down to passes over its rows. -/
structure Settling (query : Query T ρ) (pass : Pass T) (Inv : T → Prop) where
  before : Uuid × ρ → Uuid × ρ → Bool
  version : Time → Uuid → ρ → ρ
  nodup : ∀ table, ((query.rows table).map (·.1)).Nodup
  selected : ∀ limit table, query.selected limit table =
    ((eligible query.eligible (query.rows table)).insertionSort fun a b => before a b).take limit
  due : ∀ r, query.eligible r = true → query.due r = true
  settled : ∀ clock k r, query.eligible (version clock k r) = false
  step : ∀ clock limit table, Inv table → ∃ table',
    pass clock limit table = .ok ((query.selected limit table).length, table') ∧
      query.rows table' = settle before query.eligible limit (version clock) (query.rows table) ∧
      Inv table'

namespace Settling

variable {query : Query T ρ} {pass : Pass T} {Inv : T → Prop} (h : Settling query pass Inv)
  {table : T}
include h

theorem found_eq (limit : Nat) (table : T) :
    (query.selected limit table).map (·.1) =
      found h.before query.eligible limit (query.rows table) :=
  congrArg (List.map (·.1)) (h.selected limit table)

theorem key_found {limit : Nat} {row : Uuid × ρ} (member : row ∈ query.selected limit table) :
    row.1 ∈ found h.before query.eligible limit (query.rows table) :=
  h.found_eq limit table ▸ List.mem_map.mpr ⟨row, member, rfl⟩

/-- The passes of a run, on the rows. -/
theorem run (inv : Inv table) (calls : List (Time × Nat)) : ∃ after,
    runPasses pass calls table = .ok after ∧
      query.rows after = settleAll h.before query.eligible
        (calls.map fun call => (call.2, h.version call.1)) (query.rows table) := by
  induction calls generalizing table with
  | nil => exact ⟨table, rfl, rfl⟩
  | cons call calls ih =>
      obtain ⟨table', once, rows, inv'⟩ := h.step call.1 call.2 table inv
      obtain ⟨after, rest, rows'⟩ := ih inv'
      refine ⟨after, ?_, ?_⟩
      · rw [runPasses, once]
        exact rest
      · rw [rows', rows]
        rfl

theorem rows_run (inv : Inv table) {calls : List (Time × Nat)} {after : T}
    (ran : runPasses pass calls table = .ok after) :
    query.rows after = settleAll h.before query.eligible
      (calls.map fun call => (call.2, h.version call.1)) (query.rows table) := by
  obtain ⟨after', ran', rows⟩ := h.run inv calls
  obtain rfl : after' = after := Except.ok.inj (ran'.symm.trans ran)
  exact rows

theorem once (inv : Inv table) {clock : Time} {limit : Nat} {out : Nat × T}
    (ran : pass clock limit table = .ok out) :
    out.1 = (query.selected limit table).length ∧ Inv out.2 ∧
      query.rows out.2 =
        settle h.before query.eligible limit (h.version clock) (query.rows table) := by
  obtain ⟨table', ran', rows, inv'⟩ := h.step clock limit table inv
  obtain rfl : (_, table') = out := Except.ok.inj (ran'.symm.trans ran)
  exact ⟨rfl, inv', rows⟩

theorem converges (inv : Inv table) : Converges query pass table := by
  have versions : ∀ calls : List (Time × Nat), ∀ each ∈ calls.map fun call =>
      (call.2, h.version call.1), ∀ k r, query.eligible (each.2 k r) = false := by
    intro calls each member k r
    obtain ⟨call, _, rfl⟩ := List.mem_map.mp member
    exact h.settled call.1 k r
  refine ⟨fun calls => ?_, fun clock limit out ran => (h.once inv ran).1, ?_, ?_, ?_, ?_⟩
  · obtain ⟨after, ran, _⟩ := h.run inv calls
    exact ⟨after, ran⟩
  · intro clock limit out ran row member
    have here := h.key_found member
    rw [h.selected] at member
    have inside := (List.mem_filter.mp (List.mem_insertionSort _ |>.mp
      (List.mem_of_mem_take member))).1
    obtain ⟨changed, there⟩ := changed_of_found (h.settled clock) (h.nodup table) inside here
    exact ⟨_, changed, (h.once inv ran).2.2 ▸ there⟩
  · intro clock limit out ran calls later ran' row member limit'
    obtain ⟨_, inv', rows⟩ := h.once inv ran
    have settled : Settled query.eligible row.1 (query.rows out.2) :=
      rows ▸ settled_of_found (h.settled clock) (h.key_found member)
    rw [h.found_eq, h.rows_run inv' ran']
    exact (settled.settleAll (versions calls)).not_found
  · intro calls after ran row member young
    have rest : query.eligible row.2 = false := by
      by_contra meets
      exact Bool.false_ne_true (young ▸ h.due row.2 (Bool.of_not_eq_false meets))
    rw [h.rows_run inv ran]
    exact mem_settleAll_of_not (h.nodup table) member rest
  · intro calls after limit positive same enough ran row member
    have limits : (calls.map fun call => (call.2, h.version call.1)).map (·.1) =
        List.replicate calls.length limit := by
      rw [List.map_map, List.eq_replicate_iff]
      refine ⟨List.length_map _, fun n inside => ?_⟩
      obtain ⟨call, here, rfl⟩ := List.mem_map.mp inside
      exact same call here
    have left : (eligible query.eligible (settleAll h.before query.eligible
        (calls.map fun call => (call.2, h.version call.1)) (query.rows table))).length = _ :=
      length_eligible_settleAll (versions calls) (h.nodup table)
    rw [limits, List.sum_replicate_nat, ← h.rows_run inv ran] at left
    have none_left : (eligible query.eligible (query.rows after)).length = 0 := by
      have covered := (Nat.div_le_iff_le_mul_add_pred positive).mp enough
      rw [left, Nat.sub_eq_zero_iff_le, Nat.mul_comm, eligible]
      omega
    by_contra meets
    have inside : row ∈ eligible query.eligible (query.rows after) :=
      List.mem_filter.mpr ⟨member, Bool.of_not_eq_false meets⟩
    rw [List.length_eq_zero_iff.mp none_left] at inside
    exact List.not_mem_nil inside

end Settling

end Promise

/-! ## Invites -/

section Invites

/-- The token tombstones of a table were written by the scrubbers. -/
def OwnTombstones (table : InviteTable) : Prop :=
  ∀ row ∈ table.rows, startsWith row.2.tokenHash s!"{scrubbedInviteTokenPrefix}:" = true →
    row.2.tokenHash = scrubbedInviteTokenHash row.1

variable {table : InviteTable} {f : Uuid → Invite → Invite} {ids : List Uuid} {ρ : Type}

theorem scrubbedInviteTokenHash_injective : Function.Injective scrubbedInviteTokenHash := by
  intro a b same
  have texts := String.toList_inj.mpr same
  simp only [scrubbedInviteTokenHash, String.toList_append, List.append_cancel_left_eq] at texts
  exact Nat.repr_injective (String.toList_inj.mp texts)

theorem rewritten_congr {keys keys' : List Uuid} {f : Uuid → ρ → ρ} {rows : List (Uuid × ρ)}
    (same : ∀ k, k ∈ keys ↔ k ∈ keys') : rewritten keys f rows = rewritten keys' f rows :=
  List.map_congr_left fun row _ => by simp only [same row.1]

theorem rewritten_cons {id : Uuid} {keys : List Uuid} (fresh : id ∉ keys) (f : Uuid → ρ → ρ)
    (rows : List (Uuid × ρ)) :
    rewritten (id :: keys) f rows = rewritten keys f (rewritten [id] f rows) := by
  simp only [rewritten, List.map_map]
  refine List.map_congr_left fun row _ => ?_
  by_cases here : row.1 = id
  · subst here
    simp [fresh]
  · simp [here]

variable (tombstones : ∀ id i, (f id i).tokenHash = scrubbedInviteTokenHash id)
include tombstones

/-- A tombstone is on no other row, so the unique index accepts it. -/
theorem flushInvite_eq (own : OwnTombstones table) (id : Uuid) : ∃ table',
    flushInvite f table id = .ok table' ∧ table'.rows = rewritten [id] f table.rows ∧
      OwnTombstones table' := by
  have rows : (table.update (fun other _ => other == id) f).rows = rewritten [id] f table.rows :=
    List.map_congr_left fun row _ => by simp
  have own' : ∀ row ∈ rewritten [id] f table.rows,
      startsWith row.2.tokenHash s!"{scrubbedInviteTokenPrefix}:" = true →
        row.2.tokenHash = scrubbedInviteTokenHash row.1 := by
    rintro ⟨k, i⟩ member starts
    obtain ⟨_, there⟩ | ⟨_, s, _, rfl⟩ := mem_rewritten.mp member
    · exact own _ there starts
    · exact tombstones k s
  -- a row with the tombstone of `id` is the row of `id`
  have other : ∀ row ∈ table.rows, row.2.tokenHash = scrubbedInviteTokenHash id → row.1 = id := by
    intro row member same
    have starts := startsWith_scrubbedInviteTokenHash id
    rw [← same] at starts
    exact scrubbedInviteTokenHash_injective ((own row member starts).symm.trans same)
  have unique : ((table.update (fun other _ => other == id) f).rows.map (·.2.tokenHash)).Nodup := by
    rw [rows, rewritten, List.map_map]
    refine List.Nodup.map_on ?_ (List.Nodup.of_map _ table.nodup)
    intro a here b there same
    simp only [Function.comp_apply, List.mem_singleton] at same
    by_cases first : a.1 = id <;> by_cases second : b.1 = id
    · exact List.inj_on_of_nodup_map table.nodup here there (first.trans second.symm)
    · rw [if_pos first, if_neg second, tombstones, first] at same
      exact absurd (other b there same.symm) second
    · rw [if_neg first, if_pos second, tombstones, second] at same
      exact absurd (other a here same) first
    · rw [if_neg first, if_neg second] at same
      exact List.inj_on_of_nodup_map table.tokenHashes here there same
  exact ⟨⟨_, unique⟩, dif_pos unique, rows, fun row member => own' row (rows ▸ member)⟩

theorem flushInvites_eq (own : OwnTombstones table) (distinct : ids.Nodup) : ∃ table',
    ids.foldlM (flushInvite f) table = .ok table' ∧ table'.rows = rewritten ids f table.rows ∧
      OwnTombstones table' := by
  induction ids generalizing table with
  | nil => exact ⟨table, rfl, by simp [rewritten], own⟩
  | cons id ids ih =>
      obtain ⟨fresh, rest⟩ := List.nodup_cons.mp distinct
      obtain ⟨once, ran, rows, own'⟩ := flushInvite_eq tombstones own id
      obtain ⟨after, ran', rows', own''⟩ := ih own' rest
      refine ⟨after, ?_, by rw [rows', rows, rewritten_cons fresh], own''⟩
      rw [List.foldlM_cons, ran]
      exact ran'

/-- Where Python rewrites every row that the query finds, the rewrite is one pass. -/
theorem rewriteInvites_eq {p needs : Invite → Bool} {limit : Nat} (own : OwnTombstones table)
    (agree : ∀ i, p i = true → needs i = true) : ∃ table',
    rewriteInvites (table.select byUpdate p limit) needs f table =
        .ok ((table.select byUpdate p limit).length, table') ∧
      table'.rows = settle byUpdate p limit f table.rows ∧ OwnTombstones table' := by
  have every : (table.select byUpdate p limit).filter (fun row => needs row.2) =
      table.select byUpdate p limit :=
    List.filter_eq_self.mpr fun row member => agree row.2 (Table.mem_select member).2
  let keys := (table.select byUpdate p limit).map (·.1)
  have sorted := List.perm_insertionSort (fun a b : Uuid => a ≤ b) keys
  obtain ⟨table', ran, rows, own'⟩ :=
    flushInvites_eq tombstones own (sorted.nodup_iff.mpr table.nodup_select)
  refine ⟨table', ?_, ?_, own'⟩
  · simp only [rewriteInvites, every]
    rw [ran, List.length_map]
    rfl
  · rw [rows]
    exact rewritten_congr fun k => sorted.mem_iff

end Invites

/-- The query of `_anonymise_retained_invites`. -/
def retainedInvites (settings : RetentionSettings) (now : Time) : Query InviteTable Invite where
  rows table := table.rows
  due := isDueInvite settings now
  eligible i := (retainedInviteCondition settings now i).holds
  selected := loadRetainedInvites settings now

/-- The row is closed, and its cutoff is over. -/
def isCompletedInvite (cutoffs : Cutoffs) (i : Invite) : Bool :=
  match i.status with
  | .accepted => i.updatedAt < cutoffs.acceptedBefore
  | .expired => i.updatedAt < cutoffs.expiredBefore
  | .revoked => i.updatedAt < cutoffs.revokedBefore
  | .pending => false

/-- The query of `anonymise_completed_invites_older_than`. -/
def completedInvites (cutoffs : Cutoffs) : Query InviteTable Invite where
  rows table := table.rows
  due := isCompletedInvite cutoffs
  eligible i := (completedInviteCondition cutoffs i).holds
  selected := loadCompletedInvites cutoffs

theorem completedInviteCondition_eq (cutoffs : Cutoffs) (i : Invite) :
    (completedInviteCondition cutoffs i).holds =
      (isCompletedInvite cutoffs i && !isScrubbedInvite i) := by
  have tombstone : (emailIsScrubbed i).and (tokenIsScrubbed i) = some (isScrubbedInvite i) := by
    rw [emailIsScrubbed_eq, tokenIsScrubbed_eq, isScrubbedInvite]
    cases endsWith i.email s!"@{scrubbedInviteEmailDomain}" <;>
      cases startsWith i.tokenHash s!"{scrubbedInviteTokenPrefix}:" <;> rfl
  simp only [completedInviteCondition, tombstone, hasStatus, isBefore, compare_known,
    Truth.not_known, Truth.holds_or, Truth.holds_and, Truth.holds_known, isCompletedInvite,
    beq_eq_decide]
  cases i.status <;> simp

/-- Where nothing needs the retention, there is nothing to flush. -/
theorem anonymiseRetainedInvites_eq (settings : RetentionSettings) (clock now : Time) (limit : Nat)
    (table : InviteTable) : anonymiseRetainedInvites settings clock now limit false table =
      rewriteInvites (loadRetainedInvites settings now limit table) inviteNeedsRetention
        (applyInviteRetention clock) table := by
  unfold anonymiseRetainedInvites
  by_cases none : ((loadRetainedInvites settings now limit table).filter
      fun row => inviteNeedsRetention row.2) = []
  · simp only [none, rewriteInvites]
    rfl
  · have some_row : ((loadRetainedInvites settings now limit table).filter
        fun row => inviteNeedsRetention row.2).length ≠ 0 := by
      rwa [Ne, List.length_eq_zero_iff]
    simp only [Bool.false_or, beq_iff_eq, if_neg some_row]

def retainedInvites_settling (settings : RetentionSettings) (now : Time) :
    Settling (retainedInvites settings now)
      (fun clock limit => anonymiseRetainedInvites settings clock now limit false)
      OwnTombstones where
  before := byUpdate
  version := applyInviteRetention
  nodup table := table.nodup
  selected _ _ := rfl
  due i meets := by
    have window := (Bool.and_eq_true_iff.mp (Truth.holds_and.symm.trans meets)).1
    exact inviteWindowCondition_eq.symm.trans window
  settled clock id i := by
    have scrubbed : isScrubbedInvite (applyInviteRetention clock id i) = true :=
      isScrubbedInvite_of_tombstones rfl rfl
    have needless : inviteNeedsRetention (applyInviteRetention clock id i) = false := by
      rw [inviteNeedsRetention, scrubbed]
      rfl
    simp only [retainedInvites, retainedInviteCondition, Truth.holds_and,
      inviteNeedsRetentionCondition_eq, needless, Bool.and_false]
  step clock limit table own := by
    rw [anonymiseRetainedInvites_eq]
    refine rewriteInvites_eq (fun _ _ => rfl) own fun i meets => ?_
    rw [retainedInviteCondition, Truth.holds_and, inviteNeedsRetentionCondition_eq] at meets
    exact (Bool.and_eq_true_iff.mp meets).2

def completedInvites_settling (cutoffs : Cutoffs) :
    Settling (completedInvites cutoffs) (anonymiseCompletedInvitesOlderThan cutoffs)
      OwnTombstones where
  before := byUpdate
  version := anonymised
  nodup table := table.nodup
  selected _ _ := rfl
  due i meets :=
    (Bool.and_eq_true_iff.mp ((completedInviteCondition_eq cutoffs i).symm.trans meets)).1
  settled clock id i := by
    have scrubbed : isScrubbedInvite (anonymised clock id i) = true :=
      isScrubbedInvite_of_tombstones rfl rfl
    show (completedInviteCondition cutoffs (anonymised clock id i)).holds = false
    rw [completedInviteCondition_eq, scrubbed, Bool.not_true, Bool.and_false]
  step clock limit table own := rewriteInvites_eq (fun _ _ => rfl) own fun i meets =>
    (Bool.and_eq_true_iff.mp ((completedInviteCondition_eq cutoffs i).symm.trans meets)).2

/-- A batch in which every row needs its new version. -/
theorem retainBatch_eq {ρ : Type} {rows : List (Uuid × ρ)} {needs : ρ → Bool} {f : Uuid → ρ → ρ}
    {table : Table ρ} (every : ∀ row ∈ rows, needs row.2 = true) :
    retainBatch false rows needs f table =
      (rows.length, table.update (fun id _ => (rows.map (·.1)).contains id) f) := by
  have kept : rows.filter (fun row => needs row.2) = rows := List.filter_eq_self.mpr every
  simp only [retainBatch, kept, Bool.false_or]
  split
  · rename_i empty
    obtain rfl := List.isEmpty_iff.mp empty
    refine Prod.ext rfl (Table.ext ?_)
    simp [Table.update]
  · rfl

theorem rows_update {ρ : Type} (keys : List Uuid) (f : Uuid → ρ → ρ) (table : Table ρ) :
    (table.update (fun id _ => keys.contains id) f).rows = rewritten keys f table.rows :=
  List.map_congr_left fun row _ => by simp only [List.contains_iff_mem]

/-- With the queries in the place of the predicates, the pass over the invites is the one of the
maintenance. -/
theorem anonymiseRetainedInvites_refines {settings : RetentionSettings} {now : Time}
    {table : InviteTable} (own : OwnTombstones table) (clock : Time) (limit : Nat) : ∃ table',
    anonymiseRetainedInvites settings clock now limit false table =
        .ok ((Retention.anonymiseRetainedInvites settings clock now limit false table.toTable).1,
          table') ∧
      table'.toTable =
        (Retention.anonymiseRetainedInvites settings clock now limit false table.toTable).2 := by
  obtain ⟨table', ran, rows, _⟩ :=
    (retainedInvites_settling settings now).step clock limit table own
  have query : (fun i => (retainedInviteCondition settings now i).holds) =
      isRetainedInvite settings now := funext fun _ => retainedInviteCondition_eq
  have batch : Retention.anonymiseRetainedInvites settings clock now limit false table.toTable =
      _ := retainBatch_eq fun row member => (Bool.and_eq_true_iff.mp (Table.mem_select member).2).2
  have selected : loadRetainedInvites settings now limit table =
      table.select byUpdate (isRetainedInvite settings now) limit := by
    rw [loadRetainedInvites, query]
  refine ⟨table', ?_, ?_⟩
  · rw [batch]
    exact ran.trans (congrArg (fun rows => Except.ok (rows.length, table')) selected)
  · rw [batch]
    refine Table.ext (rows.trans ?_)
    rw [rows_update]
    exact congrArg (fun rows => rewritten (rows.map (·.1)) _ table.rows) selected

/-! ## Outbox events -/

section Events

variable {event : OutboxEvent} {cast : String → Option Bool} {items : List (String × JsonValue)}

/-- The item under the marker of the retention. -/
def markerOf : Payload → Option JsonValue
  | .dict items => items.lookup privacyRetentionMarker
  | .other _ => none

/-- The markers of a table were written by the scrubbers. -/
def OwnMarkers (table : Table OutboxEvent) : Prop :=
  ∀ row ∈ table.rows, ∀ value, markerOf row.2.payload = some value → value = .flag true

theorem lookup_setKey (key : String) (value : JsonValue) (items : List (String × JsonValue)) :
    (Outbox.setKey key value items).lookup key = some value := by
  unfold Outbox.setKey
  split
  · rename_i some_item
    induction items with
    | nil => simp at some_item
    | cons item items ih =>
        by_cases here : item.1 = key
        · simp [here]
        · have other : (key == item.1) = false := beq_false_of_ne fun same => here same.symm
          have later : (items.any fun item => item.1 == key) = true := by
            simpa [here] using some_item
          rw [List.map_cons, if_neg (by simpa using here), List.lookup_cons, other]
          exact ih later
  · rename_i no_item
    have fresh : items.lookup key = none := by
      rw [List.lookup_eq_none_iff]
      intro item member
      rw [bne_iff_ne]
      rintro rfl
      exact no_item (List.any_eq_true.mpr ⟨item, member, BEq.rfl⟩)
    rw [List.lookup_append, fresh, List.lookup_cons, BEq.rfl]
    rfl

theorem markerOf_scrubbedPayload (payload : Payload) :
    markerOf (scrubbedPayload privacyRetentionMarker payload) = some (.flag true) :=
  lookup_setKey _ _ _

/-- Where the marker is the one that the scrubbers write, the cast finds what Python finds. -/
theorem payloadMarker_eq (own : ∀ value, markerOf event.payload = some value → value = .flag true) :
    (payloadMarker cast event.payload != some true) = !isRetentionScrubbed event.payload := by
  cases shape : event.payload with
  | other json => rfl
  | dict items =>
      rw [shape] at own
      cases marker : items.lookup privacyRetentionMarker with
      | none => simp [payloadMarker, isRetentionScrubbed, marker]
      | some value =>
          obtain rfl := own value marker
          simp [payloadMarker, isRetentionScrubbed, marker]

/-- `_outbox_event_needs_retention` is the condition of the query. -/
theorem outboxEventNeedsRetentionCondition_eq
    (own : ∀ value, markerOf event.payload = some value → value = .flag true) :
    (outboxEventNeedsRetentionCondition cast event).holds = needsRetention event := by
  have text : ((isNotNull event.lastError).and (Sql.compare (· != ·) event.lastError
      (some "privacy_retention_scrubbed"))).holds =
        event.lastError.any (· ≠ "privacy_retention_scrubbed") := by
    cases event.lastError with
    | none => rfl
    | some error => simp [isNotNull, bne, beq_eq_decide]
  rw [Truth.holds_and] at text
  simp only [outboxEventNeedsRetentionCondition, Truth.holds_or, Truth.holds_and, isNotTrue,
    Truth.holds_known, payloadMarker_eq own, statusIs, isNotNull, needsRetention] at text ⊢
  rw [Bool.and_assoc, text]

/-- The event is finished, and its window is over. -/
def isDueEvent (now : Time) (event : OutboxEvent) : Bool :=
  (event.status == .processed || event.status == .failed) &&
    event.processedAt.getD event.updatedAt ≤ now - timedelta outboxDeliveryRetentionDays

theorem retainedEventCondition_eq {now : Time} :
    (retainedEventCondition cast now event).holds =
      (isDueEvent now event && (outboxEventNeedsRetentionCondition cast event).holds) := by
  simp only [retainedEventCondition, statusIs, isAtMost, coalesce_getD, compare_known,
    Truth.holds_or, Truth.holds_and, Truth.holds_known, isDueEvent]

/-- The query of `_scrub_retained_outbox_events`. -/
def retainedEvents (cast : String → Option Bool) (now : Time) :
    Query (Table OutboxEvent) OutboxEvent where
  rows := Table.rows
  due := isDueEvent now
  eligible event := (retainedEventCondition cast now event).holds
  selected := loadRetainedOutboxEvents cast now

/-- `_scrub_retained_outbox_events` as a pass; it does not fail. -/
def eventPass (cast : String → Option Bool) (now : Time) : Pass (Table OutboxEvent) :=
  fun clock limit table => .ok (scrubRetainedOutboxEvents cast clock now limit false table)

theorem needsRetention_applyOutboxRetention (event : OutboxEvent) :
    needsRetention (applyOutboxRetention event) = false := by
  have scrubbed : isRetentionScrubbed (applyOutboxRetention event).payload = true := by
    have marker := markerOf_scrubbedPayload event.payload
    simp only [markerOf, scrubbedPayload] at marker
    simp only [applyOutboxRetention, scrubbedPayload, isRetentionScrubbed, marker, BEq.rfl]
  rw [needsRetention, scrubbed]
  by_cases failed : event.status = .failed <;> simp [applyOutboxRetention, failed]

theorem needsRetention_of_selected {now : Time} {limit : Nat} {table : Table OutboxEvent}
    {row : Uuid × OutboxEvent} (own : OwnMarkers table)
    (member : row ∈ loadRetainedOutboxEvents cast now limit table) :
    needsRetention row.2 = true := by
  obtain ⟨here, meets⟩ := Table.mem_select member
  rw [retainedEventCondition_eq, outboxEventNeedsRetentionCondition_eq (own row here)] at meets
  exact (Bool.and_eq_true_iff.mp meets).2

def retainedEvents_settling (cast : String → Option Bool) (now : Time) :
    Settling (retainedEvents cast now) (eventPass cast now) OwnMarkers where
  before := byCreation
  version := retainedEvent
  nodup table := table.nodup
  selected _ _ := rfl
  due event meets := (Bool.and_eq_true_iff.mp (retainedEventCondition_eq.symm.trans meets)).1
  settled clock id event := by
    have own : ∀ value, markerOf (retainedEvent clock id event).payload = some value →
        value = .flag true := fun value marker =>
      Option.some.inj (marker.symm.trans (markerOf_scrubbedPayload event.payload))
    have needless : needsRetention (retainedEvent clock id event) = false :=
      needsRetention_applyOutboxRetention event
    show (retainedEventCondition cast now (retainedEvent clock id event)).holds = false
    rw [retainedEventCondition_eq, outboxEventNeedsRetentionCondition_eq own, needless,
      Bool.and_false]
  step clock limit table own := by
    have pass : scrubRetainedOutboxEvents cast clock now limit false table = _ :=
      retainBatch_eq fun row member => needsRetention_of_selected own member
    refine ⟨_, congrArg Except.ok pass, rows_update _ _ table, ?_⟩
    rintro ⟨k, event⟩ member value marker
    rw [rows_update] at member
    obtain ⟨_, there⟩ | ⟨_, s, _, rfl⟩ := mem_rewritten.mp member
    · exact own _ there value marker
    · exact Option.some.inj (marker.symm.trans (markerOf_scrubbedPayload s.payload))

/-- The same for the pass over the outbox events. -/
theorem scrubRetainedOutboxEvents_refines {now : Time} {table : Table OutboxEvent}
    (own : OwnMarkers table) (clock : Time) (limit : Nat) :
    scrubRetainedOutboxEvents cast clock now limit false table =
      Retention.scrubRetainedOutboxEvents clock now limit false table := by
  have selected : loadRetainedOutboxEvents cast now limit table =
      table.select byCreation (isRetainedEvent now) limit := by
    refine congrArg (fun rows => (rows.insertionSort fun a b => byCreation a b).take limit)
      (List.filter_congr fun row member => ?_)
    show (retainedEventCondition cast now row.2).holds = isRetainedEvent now row.2
    rw [retainedEventCondition_eq, outboxEventNeedsRetentionCondition_eq (own row member)]
    rfl
  rw [scrubRetainedOutboxEvents, selected]
  rfl

end Events

/-! ## Convergence -/

/-- Both retentions of invites and that of outbox events converge, whatever the database holds. -/
theorem retention_converges :
    (∀ settings now table, OwnTombstones table →
      Converges (retainedInvites settings now)
        (fun clock limit => anonymiseRetainedInvites settings clock now limit false) table) ∧
    (∀ cutoffs table, OwnTombstones table →
      Converges (completedInvites cutoffs) (anonymiseCompletedInvitesOlderThan cutoffs) table) ∧
    (∀ cast now table, OwnMarkers table →
      Converges (retainedEvents cast now) (eventPass cast now) table) ∧
    (∀ settings now cutoffs (i : Invite), i.status = .pending →
      isDueInvite settings now i = false ∧ isCompletedInvite cutoffs i = false) ∧
    ∀ now (event : OutboxEvent), event.status = .pending ∨ event.status = .processing →
      isDueEvent now event = false := by
  refine ⟨fun settings now table own => (retainedInvites_settling settings now).converges own,
    fun cutoffs table own => (completedInvites_settling cutoffs).converges own,
    fun cast now table own => (retainedEvents_settling cast now).converges own, ?_, ?_⟩
  · intro settings now cutoffs i pending
    simp [isDueInvite, isCompletedInvite, pending]
  · rintro now event (pending | processing)
    · simp [isDueEvent, pending, beq_eq_decide]
    · simp [isDueEvent, processing, beq_eq_decide]

def exampleInvite (status : Tenancy.InviteStatus) (tokenHash : String) : Invite where
  email := "a@example.org"
  organisationId := 1
  role := .member
  status := status
  tokenHash := tokenHash
  expiresAt := none
  revokedAt := none
  revokedByUserId := none
  updatedAt := 0

/-- A due invite, a tombstone and a pending invite. -/
def exampleInvites : InviteTable where
  rows := [(1, exampleInvite .accepted "h"),
    (2, exampleInvite .revoked (scrubbedInviteTokenHash 2)),
    (3, exampleInvite .pending "g")]
  nodup := by decide
  tokenHashes := by decide

def exampleEvent (payload : Payload) : OutboxEvent where
  eventType := "invite.created"
  aggregateType := none
  aggregateId := none
  payload := payload
  status := .processed
  attempts := 1
  maxAttempts := 10
  nextAttemptAt := none
  lockedAt := none
  processedAt := some 0
  lastError := none
  createdAt := 0
  updatedAt := 0

/-- A finished event with its token, and one that the retention has scrubbed. -/
def exampleEvents : Table OutboxEvent where
  rows := [(1, exampleEvent (.dict [("encrypted_raw_token", .text "t")])),
    (2, exampleEvent (.dict [(privacyRetentionMarker, .flag true)]))]
  nodup := by decide

theorem retention_converges_example :
    Converges (retainedInvites Retention.exampleSettings 10000000)
        (fun clock limit =>
          anonymiseRetainedInvites Retention.exampleSettings clock 10000000 limit false)
        exampleInvites ∧
      Converges (completedInvites ⟨5, 5, 5⟩) (anonymiseCompletedInvitesOlderThan ⟨5, 5, 5⟩)
        exampleInvites ∧
      Converges (retainedEvents (fun _ => none) 10000000) (eventPass (fun _ => none) 10000000)
        exampleEvents ∧
      isDueInvite Retention.exampleSettings 10000000 (exampleInvite .pending "g") = false ∧
      isDueEvent 10000000 { exampleEvent (.other "null") with status := .pending } = false := by
  have own : OwnTombstones exampleInvites := by
    intro row member
    simp only [exampleInvites, List.mem_cons, List.not_mem_nil, or_false] at member
    rcases member with rfl | rfl | rfl
    · decide
    · exact fun _ => rfl
    · decide
  have markers : OwnMarkers exampleEvents := by
    intro row member value
    simp only [exampleEvents, List.mem_cons, List.not_mem_nil, or_false] at member
    rcases member with rfl | rfl
    · simp [markerOf, exampleEvent, privacyRetentionMarker, List.lookup_cons]
    · simp [markerOf, exampleEvent, eq_comm]
  obtain ⟨retained, completed, events, pending, queued⟩ := retention_converges
  exact ⟨retained Retention.exampleSettings 10000000 exampleInvites own,
    completed ⟨5, 5, 5⟩ exampleInvites own,
    events (fun _ => none) 10000000 exampleEvents markers,
    (pending Retention.exampleSettings 10000000 ⟨5, 5, 5⟩ _ rfl).1, queued 10000000 _ (.inl rfl)⟩

end SaasTemplate.Privacy.RetentionQueries
