import SaasTemplate.Isolation.EndlessRuns
import SaasTemplate.RateLimit.Commands

/-! # The fallback heals its keys

`INCR` and `PEXPIRE` are two commands, so a call that is given up in between leaves a key that
never expires. A call that gets to its end leaves no such key behind, whatever the others do.
-/

namespace SaasTemplate.RateLimit

open Isolation
open Isolation.Prog (stmt forEach leavesLast_pure)
open Redis

variable {τ : Type} [DecidableEq τ] {t : τ} {client : RedisClient}
  {buckets : List GroupedBucketSpec} {r : Redis String} {key k : String} {ms : Int}

/-- The commands on one key. -/
def onKey (key : String) : RedisCommand → Bool
  | .eval keys _ => keys.contains key
  | .get k => k == key
  | .pttl k => k == key
  | .incr k => k == key
  | .pexpire k _ => k == key

/-- The key is not there, or has a time to live. -/
def expires (key : String) (r : Redis String) : Bool := (r.find key).all (·.expireAt.isSome)

/-- The call has incremented the key, or was blocked on it. -/
def Touches (buckets : List GroupedBucketSpec) (result : GroupedConsumeResult) (key : String) :
    Prop :=
  (result.allowed = true ∧ key ∈ buckets.map (·.key)) ∨
    ∃ i bucket, result.blockedIndex = some i ∧ buckets[i]? = some bucket ∧ bucket.key = key

/-! ## Keys with a time to live -/

theorem expires_congr {r' : Redis String} (same : r'.find key = r.find key)
    (h : expires key r = true) : expires key r' = true := by
  rw [expires, same]
  exact h

theorem expires_of_pttl (present : 0 ≤ r.pttl key) : expires key r = true := by
  unfold expires
  cases found : r.find key with
  | none => rfl
  | some e =>
      cases expiry : e.expireAt with
      | none => simp [pttl, found, Entry.ttl, expiry] at present
      | some t => simp [expiry]

theorem expires_pexpire : expires key (r.pexpire key ms) = true := by
  unfold expires pexpire
  cases found : r.find key with
  | none => simp [found]
  | some e =>
      simp only [find_put_same]
      split
      · rfl
      · simp only [Option.all_filter, Option.all_some]
        simp

theorem expires_pexpire_any (h : expires key r = true) : expires key (r.pexpire k ms) = true := by
  by_cases same : key = k
  · exact same ▸ expires_pexpire
  · exact expires_congr (find_pexpire_other same) h

theorem expires_incr (h : expires key r = true) (there : r.find key ≠ none) :
    expires key (r.incr k).2 = true := by
  by_cases same : key = k
  · subst same
    obtain ⟨e, found⟩ := Option.ne_none_iff_exists'.mp there
    simp only [expires, found, Option.all_some] at h
    simp [expires, find_incr_same, found, h]
  · exact expires_congr (find_incr_other same) h

theorem expires_renew (h : expires key r = true) :
    expires key (renew scriptLacks k ms r).2 = true := by
  unfold renew
  dsimp only
  split
  · exact expires_pexpire_any h
  · exact h

/-- The script has no command between `INCR` and `PEXPIRE`. -/
theorem expires_increment (h : expires key r = true) :
    expires key (increment scriptLacks k ms r) = true := by
  unfold increment
  dsimp only
  by_cases same : key = k
  · subst same
    split
    · exact expires_pexpire
    · rename_i keeps
      refine expires_of_pttl ?_
      simp only [scriptLacks, decide_eq_true_eq, not_or] at keeps
      omega
  · have incremented := expires_congr (find_incr_other same) h
    split
    · exact expires_pexpire_any incremented
    · exact incremented

theorem expires_eval (keys : List String) (argv : List Int) (h : expires key r = true) :
    expires key (groupedFixedWindowConsume keys argv r).2 = true := by
  have checks : ∀ n left, ∀ {r : Redis String}, expires key r = true →
      expires key (scriptCheck keys argv n left r).2 = true := by
    intro n left
    induction left with
    | zero => exact fun h => h
    | succ left ih =>
        intro r h
        unfold scriptCheck
        dsimp only
        split
        · exact expires_renew h
        · exact ih h
  have consumes : ∀ n left, ∀ {r : Redis String}, expires key r = true →
      expires key (scriptConsume keys argv n left r) = true := by
    intro n left
    induction left with
    | zero => exact fun h => h
    | succ left ih => exact fun h => ih (expires_increment h)
  have checked := checks (argAt argv 1).toNat (argAt argv 1).toNat h
  unfold groupedFixedWindowConsume
  dsimp only
  split
  · rename_i is
    rwa [is] at checked
  · rename_i is
    rw [is] at checked
    exact consumes _ _ checked

/-- A command leaves a time to live to a key that stays there. -/
theorem expires_exec (command : RedisCommand) (h : expires key r = true)
    (there : r.find key ≠ none) : expires key (command.exec r).2 = true := by
  cases command with
  | eval keys argv => exact expires_eval keys argv h
  | get | pttl => exact h
  | incr k => exact expires_incr h there
  | pexpire k ms => exact expires_pexpire_any h

/-! ## One call -/

section Call

variable {seen : Option Bool}

omit [DecidableEq τ] in
/-- A program that goes on with the answer of a command. -/
theorem leavesLast_then {α : Type} {command : RedisCommand} {f : command.Reply → RedisProg α}
    {Q : Except LimiterException α → Option Bool → Prop} (fails : ∀ e seen, Q (.error e) seen)
    (answers : ∀ r, (f (command.exec r).1).LeavesLast (redisServer τ) t (onKey key) (expires key) Q
      (if onKey key command = true then some (expires key (command.exec r).2) else seen)) :
    (stmt command >>= f).LeavesLast (redisServer τ) t (onKey key) (expires key) Q seen := by
  refine ⟨fun r reply r' executed => ?_, fun _ e => fails e seen⟩
  cases executed
  exact answers r

/-- The position and the key of a full bucket; after the last command on its key, that key has a
    time to live. -/
def Blocks (buckets : List GroupedBucketSpec) (key : String) (index : Nat) :
    Except LimiterException (Option GroupedConsumeResult) → Option Bool → Prop
  | .ok (some result), seen => result.allowed = false ∧ ∃ i bucket, buckets[i]? = some bucket ∧
      result.blockedIndex = some (index + i) ∧ (bucket.key = key → seen = some true)
  | _, _ => True

theorem blocks_error (index : Nat) (e : LimiterException) (seen : Option Bool) :
    Blocks buckets key index (.error e) seen := trivial

theorem Blocks.later {bucket : GroupedBucketSpec} {index : Nat}
    {result : Except LimiterException (Option GroupedConsumeResult)}
    (h : Blocks buckets key (index + 1) result seen) :
    Blocks (bucket :: buckets) key index result seen := by
  rcases result with e | - | result
  · trivial
  · trivial
  · obtain ⟨refused, i, full, there, is, live⟩ := h
    exact ⟨refused, i + 1, full, there, by rw [is, Nat.add_assoc, Nat.add_comm 1], live⟩

theorem leavesLast_check (index : Nat) :
    (checkCommands index buckets).LeavesLast (redisServer τ) t (onKey key) (expires key)
      (Blocks buckets key index) seen := by
  induction buckets generalizing index seen with
  | nil => exact trivial
  | cons bucket rest ih =>
      simp only [checkCommands, redisInt_default, Prog.pure_bind_eq]
      refine leavesLast_then (blocks_error index) fun r => ?_
      split
      · refine leavesLast_then (blocks_error index) fun r => ?_
        split
        · refine leavesLast_then (blocks_error index) fun r => ⟨rfl, 0, bucket, rfl, rfl, ?_⟩
          rintro rfl
          simp [onKey, RedisCommand.exec, expires_pexpire]
        · rename_i lives
          refine ⟨rfl, 0, bucket, rfl, rfl, ?_⟩
          rintro rfl
          simp only [RedisCommand.exec, Option.getD_some] at lives
          have live := expires_of_pttl (show 0 ≤ r.pttl bucket.key by omega)
          simp [onKey, RedisCommand.exec, live]
      · exact (ih (index + 1)).mono fun _ _ => .later

/-- A round for the key leaves it with a time to live; a round for another one does not
    concern it. -/
def Increments (bucket : GroupedBucketSpec) (key : String) (seen : Option Bool) :
    Except LimiterException Unit → Option Bool → Prop
  | .ok _, after => if bucket.key = key then after = some true else after = seen
  | .error _, _ => True

theorem leavesLast_increment {bucket : GroupedBucketSpec} :
    (incrementCommands bucket).LeavesLast (redisServer τ) t (onKey key) (expires key)
      (Increments bucket key seen) seen := by
  have errors : ∀ e after, Increments bucket key seen (.error e) after := fun _ _ => trivial
  unfold incrementCommands
  refine leavesLast_then errors fun r => ?_
  simp only [redisInt_some, redisInt_default, Prog.pure_bind_eq, RedisCommand.exec]
  refine leavesLast_then errors fun r' => ?_
  split
  · refine leavesLast_then errors fun r'' => ?_
    refine leavesLast_pure ?_
    unfold Increments
    by_cases same : bucket.key = key
    · subst same
      simp [onKey, RedisCommand.exec, expires_pexpire]
    · simp [onKey, same]
  · rename_i lives
    refine leavesLast_pure ?_
    unfold Increments
    by_cases same : bucket.key = key
    · subst same
      simp only [RedisCommand.exec, Option.getD_some, not_or] at lives
      have live := expires_of_pttl (show 0 ≤ r'.pttl bucket.key by omega)
      simp [onKey, RedisCommand.exec, live]
    · simp [onKey, same]

theorem leavesLast_consume :
    (forEach buckets incrementCommands).LeavesLast (redisServer τ) t (onKey key) (expires key)
      (fun outcome after => ∀ u, outcome = .ok u → key ∈ buckets.map (·.key) ∨ seen = some true →
        after = some true) seen := by
  induction buckets generalizing seen with
  | nil => exact fun _ _ named => by simpa using named
  | cons bucket rest ih =>
      refine leavesLast_increment.bind (fun _ after step => ?_) fun _ _ _ _ is => by cases is
      refine ih.mono fun outcome last later u ends named => later u ends ?_
      unfold Increments at step
      split_ifs at step with same
      · exact .inr step
      · rcases named with named | live
        · rcases List.mem_cons.mp named with here | there
          · exact absurd here.symm same
          · exact .inl there
        · exact .inr (step.trans live)

/-- Whatever others do between its commands, a call that gets to its end has left a time to live
    to the keys it has incremented or was blocked on. -/
theorem leavesLast_consumeGrouped :
    (compatibilityConsumeGroupedBucketsWithSameKeys client buckets).LeavesLast (redisServer τ) t
      (onKey key) (expires key)
      (fun outcome seen => ∀ result, outcome = .ok result → Touches buckets result key →
        seen = some true) none := by
  have errors : ∀ (e : LimiterException) (seen : Option Bool) (result : GroupedConsumeResult),
      Except.error e = .ok result → Touches buckets result key → seen = some true :=
    fun _ _ _ is => by cases is
  have exposes : ∀ name seen, (redisMethod client name).LeavesLast (redisServer τ) t (onKey key)
      (expires key) (fun _ _ => True) seen := by
    intro name seen
    unfold redisMethod Prog.raiseIf
    split <;> trivial
  unfold compatibilityConsumeGroupedBucketsWithSameKeys
  refine (exposes "get" _).bind (fun _ _ _ => ?_) fun e seen _ => errors e seen
  refine (exposes "pttl" _).bind (fun _ _ _ => ?_) fun e seen _ => errors e seen
  refine (exposes "incr" _).bind (fun _ _ _ => ?_) fun e seen _ => errors e seen
  refine (exposes "pexpire" _).bind (fun _ _ _ => ?_) fun e seen _ => errors e seen
  refine (leavesLast_check 0).bind (fun checked seen blocks => ?_) fun e seen _ => errors e seen
  cases checked with
  | some result =>
      obtain ⟨refused, i, full, there, is, live⟩ := blocks
      rintro _ ⟨⟩ (⟨allowed, -⟩ | ⟨j, bucket, blocked, here, same⟩)
      · rw [refused] at allowed
        cases allowed
      · rw [is, Nat.zero_add, Option.some.injEq] at blocked
        subst blocked
        cases there.symm.trans here
        exact live same
  | none =>
      refine leavesLast_consume.bind (fun u after lives => ?_) fun e seen _ => errors e seen
      rintro _ ⟨⟩ (⟨-, named⟩ | ⟨i, bucket, blocked, -⟩)
      · exact lives u rfl (.inl named)
      · cases blocked

end Call

/-! ## Runs -/

section Runs

variable {α : Type} {allowed : τ → RedisCommand → Redis String → Prop}
  {c : ℕ → Config τ RedisCommand RedisCommand.Reply LimiterException (Redis String) α}
  {a b : Config τ RedisCommand RedisCommand.Reply LimiterException (Redis String) α}

/-- No step takes the time to live from a key that stays there. -/
theorem expires_step (h : (redisServer τ).Step allowed a b) (lives : expires key a.db = true)
    (there : a.db.find key ≠ none) : expires key b.db = true := by
  cases h with
  | @exec u command k reply r' running ok executed =>
      cases executed
      exact expires_exec command lives there
  | fault | crash => exact lives
  | env moved =>
      rcases moved with ⟨ms, rfl⟩ | ⟨k, rfl⟩
      · unfold expires at lives ⊢
        cases after : (a.db.wait ms).find key with
        | none => rfl
        | some e => rwa [find_wait_some after] at lives
      · by_cases same : key = k
        · subst same
          simp [expires]
        · exact expires_congr (find_put_other same) lives

omit [DecidableEq τ] in
theorem find_of_env {r r' : Redis String} {e : Entry} (moved : (redisServer τ).env r r')
    (after : r'.find key = some e) : r.find key = some e := by
  rcases moved with ⟨ms, rfl⟩ | ⟨k, rfl⟩
  · exact find_wait_some after
  · by_cases same : key = k
    · subst same
      simp at after
    · rwa [find_put_other same] at after

/-- When finitely many calls have come to an end, a key with a time to live vanishes. -/
theorem vanishes [Finite τ] (goes : (redisServer τ).Endless allowed c)
    (clock : ∀ time, ∃ n, ∀ j, n ≤ j → time < (c j).db.now) {m : ℕ}
    (lives : expires key (c m).db = true) : ∃ j, m ≤ j ∧ (c j).db.find key = none := by
  by_contra stays
  simp only [not_exists, not_and] at stays
  have live : ∀ j, m ≤ j → expires key (c j).db = true := by
    intro j later
    induction j, later using Nat.le_induction with
    | base => exact lives
    | succ j later ih => exact expires_step (goes j) ih (stays j later)
  obtain ⟨N, rests⟩ := Machine.all_rest goes
  obtain ⟨e, found⟩ := Option.ne_none_iff_exists'.mp (stays (max m N) (Nat.le_max_left _ _))
  have same : ∀ j, max m N ≤ j → (c j).db.find key = some e := by
    intro j later
    induction j, later using Nat.le_induction with
    | base => exact found
    | succ j later ih =>
        obtain ⟨e', after⟩ := Option.ne_none_iff_exists'.mp (stays (j + 1) (by omega))
        have moved := (goes j).env_of_rest fun t => by
          rw [rests (j + 1) (by omega) t, rests j (by omega) t]
        cases (find_of_env moved after).symm.trans ih
        exact after
  have dies := live (max m N) (Nat.le_max_left _ _)
  rw [expires, found, Option.all_some] at dies
  obtain ⟨time, expiry⟩ := Option.isSome_iff_exists.mp dies
  obtain ⟨n, past⟩ := clock time
  have alive := live_of_find (same (max (max m N) n) (Nat.le_max_left _ _))
  have late := past (max (max m N) n) (Nat.le_max_right _ _)
  simp only [expiry, Option.all_some, decide_eq_true_eq] at alive
  omega

end Runs

/-! A key without a time to live, a call that is blocked on it, and then a clock that goes on. -/

abbrev ExampleConfig : Type :=
  Config Unit RedisCommand RedisCommand.Reply LimiterException (Redis String) GroupedConsumeResult

def onward (c : ExampleConfig) : ExampleConfig :=
  ((redisServer Unit).next (fun _ _ _ => true) () c).getD ⟨c.db.wait 1000, c.run⟩

theorem onward_step (c : ExampleConfig) :
    (redisServer Unit).Step (fun _ _ _ => True) c (onward c) := by
  unfold onward
  cases next : (redisServer Unit).next (fun _ _ _ => true) () c with
  | none => exact .env (.inl ⟨1000, rfl⟩)
  | some d => exact Machine.next_step (fun _ _ _ _ => trivial) next

theorem onward_ended {c : ExampleConfig} {outcome : Except LimiterException GroupedConsumeResult}
    (ended : c.result () = some outcome) : onward c = ⟨c.db.wait 1000, c.run⟩ := by
  unfold onward Machine.next
  rw [Config.run_of_result ended]
  rfl

def exampleRun (n : ℕ) : ExampleConfig :=
  onward^[n] ⟨⟨0, fun k => if k = "ip" then some ⟨1, none⟩ else none⟩,
    fun _ => some (compatibilityConsumeGroupedBucketsWithSameKeys
      ⟨["get", "pttl", "incr", "pexpire"]⟩ [⟨"ip", 1, 60⟩])⟩

theorem exampleRun_after (i : ℕ) : (exampleRun (3 + i)).db.now = 1000 * i ∧
    (exampleRun (3 + i)).result () = some (.ok ⟨false, some 0, some 60⟩) := by
  induction i with
  | zero => exact ⟨rfl, by decide⟩
  | succ i ih =>
      have next : exampleRun (3 + (i + 1)) =
          ⟨(exampleRun (3 + i)).db.wait 1000, (exampleRun (3 + i)).run⟩ := by
        rw [← onward_ended ih.2]
        exact Function.iterate_succ_apply' ..
      rw [next]
      refine ⟨?_, ih.2⟩
      simp only [Redis.wait, ih.1]
      omega

end SaasTemplate.RateLimit
