import SaasTemplate.Isolation.RelyGuarantee
import SaasTemplate.RateLimit.GroupedAtomic
import SaasTemplate.Text.CodePoints

/-! # The grouped check as a program of Redis commands

The same code as in the module on groups of buckets, one command at a time: between two commands
of the fallback anybody else may run, and every command may fail. Run alone, the programs do what
the functions there do.
-/

namespace SaasTemplate.RateLimit

open Isolation
open Isolation.Prog (stmt raise raiseIf forEach)
open CodePoints (Text ofString)

/-- The classes that the handlers name, and the classes of all other exceptions. -/
inductive ErrorClass where
  | redisConnectionError
  | redisTimeoutError
  | redisError
  | timeoutError
  | runtimeError
  | attributeError
  | other
  deriving DecidableEq, Repr

/-- A Python exception as its handlers see it: the class it is an instance of, the name of its
    own class, and `str(exc)`. -/
structure Raised where
  errorClass : ErrorClass
  name : Text
  text : Text
  deriving DecidableEq, Repr

inductive LimiterException where
  | raised (exc : Raised)
  | rateLimiterUnavailable (detail : String)
  | tooManyRequests (retryAfter : String)
  deriving DecidableEq, Repr

inductive RedisCommand where
  | eval (keys : List String) (argv : List Int)
  | get (key : String)
  | pttl (key : String)
  | incr (key : String)
  | pexpire (key : String) (ms : Int)
  deriving DecidableEq, Repr

/-- `None`, or the integer of a reply. -/
abbrev RedisCommand.Reply : RedisCommand → Type
  | .eval .. => Int × Nat × Int
  | .get _ => Option Int
  | .pttl _ => Option Int
  | .incr _ => Option Int
  | .pexpire .. => Bool

/-- The methods that a client object has. -/
structure RedisClient where
  methods : List String

abbrev RedisProg (α : Type) : Type := Prog RedisCommand RedisCommand.Reply LimiterException α

def runtimeError (text : String) : LimiterException :=
  .raised ⟨.runtimeError, ofString "RuntimeError", ofString text⟩

/-- `_redis_method`. -/
def redisMethod (client : RedisClient) (methodName : String) : RedisProg Unit :=
  raiseIf (methodName ∉ client.methods)
    (runtimeError s!"Grouped Redis fallback client does not expose {methodName}()")

/-- `_redis_int`. -/
def redisInt (value default : Option Int) : RedisProg Int :=
  match value, default with
  | some value, _ => pure value
  | none, some default => pure default
  | none, none => raise (runtimeError "Grouped Redis fallback received missing integer value")

@[simp] theorem redisInt_some (value : Int) (default : Option Int) :
    redisInt (some value) default = pure value := rfl

theorem redisInt_default (value : Option Int) (default : Int) :
    redisInt value (some default) = pure (value.getD default) := by
  cases value <;> rfl

/-- The first loop of the fallback from a position on, with the result for a full bucket. -/
def checkCommands : Nat → List GroupedBucketSpec → RedisProg (Option GroupedConsumeResult)
  | _, [] => pure none
  | index, bucket :: rest => do
      let current ← redisInt (← stmt (.get bucket.key)) (some 0)
      if bucket.limit ≤ current then
        let ttl ← redisInt (← stmt (.pttl bucket.key)) (some (-1))
        let renewed := bucket.expirySeconds * 1000
        if ttl < 1 then
          let _ ← stmt (.pexpire bucket.key renewed)
          pure (some ⟨false, some index, some (retryAfter renewed)⟩)
        else pure (some ⟨false, some index, some (retryAfter ttl)⟩)
      else checkCommands (index + 1) rest

/-- One round of the second loop. -/
def incrementCommands (bucket : GroupedBucketSpec) : RedisProg Unit := do
  let nextValue ← redisInt (← stmt (.incr bucket.key)) none
  let ttl ← redisInt (← stmt (.pttl bucket.key)) (some (-1))
  if nextValue = 1 ∨ ttl < 1 then
    let _ ← stmt (.pexpire bucket.key (bucket.expirySeconds * 1000))
    pure ()
  else pure ()

/-- `compatibility_consume_grouped_buckets_with_same_keys`. -/
def compatibilityConsumeGroupedBucketsWithSameKeys (client : RedisClient)
    (buckets : List GroupedBucketSpec) : RedisProg GroupedConsumeResult := do
  redisMethod client "get"
  redisMethod client "pttl"
  redisMethod client "incr"
  redisMethod client "pexpire"
  match ← checkCommands 0 buckets with
  | some result => pure result
  | none =>
      forEach buckets incrementCommands
      pure ⟨true, none, none⟩

/-- What `atomic_consume_grouped_buckets` makes of the reply of the script. -/
def scriptResult (buckets : List GroupedBucketSpec) (raw : Int × Nat × Int) :
    GroupedConsumeResult :=
  if raw.1 = 1 then ⟨true, none, none⟩
  else
    let blockedPosition := raw.2.1
    let ttl := if raw.2.2 < 1 then
        ((buckets[blockedPosition - 1]?).map (·.expirySeconds * 1000)).getD 0
      else raw.2.2
    ⟨false, some (blockedPosition - 1), some (retryAfter ttl)⟩

/-- `atomic_consume_grouped_buckets`. -/
def evalGroupedBuckets (buckets : List GroupedBucketSpec) : RedisProg GroupedConsumeResult := do
  let raw ← stmt (.eval (buckets.map (·.key))
    ((buckets.length : Int) :: (buckets.map (·.limit) ++ buckets.map (·.expirySeconds * 1000))))
  pure (scriptResult buckets raw)

/-! ## The server -/

def RedisCommand.exec : (command : RedisCommand) → Redis String → command.Reply × Redis String
  | .eval keys argv, r => groupedFixedWindowConsume keys argv r
  | .get key, r => (r.get key, r)
  | .pttl key, r => (some (r.pttl key), r)
  | .incr key, r => (some (r.incr key).1, (r.incr key).2)
  | .pexpire key ms, r => ((r.find key).isSome, r.pexpire key ms)

/-- A client may be gone after any command, time passes, and a key may vanish at any time. -/
def redisServer (τ : Type) :
    Machine τ RedisCommand RedisCommand.Reply LimiterException (Redis String) where
  exec _ command r := some (.ok (command.exec r).1, (command.exec r).2)
  fallible _ := True
  crash _ r := r
  env r r' := (∃ ms, r' = r.wait ms) ∨ ∃ key, r' = r.put key none

section Alone

variable {τ : Type} {t : τ} {client : RedisClient} {buckets : List GroupedBucketSpec}
  {r : Redis String}

theorem solo_eval (keys : List String) (argv : List Int) :
    (redisServer τ).solo t (stmt (.eval keys argv)) r =
      some (.ok (groupedFixedWindowConsume keys argv r).1,
        (groupedFixedWindowConsume keys argv r).2) := rfl

theorem solo_get (key : String) :
    (redisServer τ).solo t (stmt (.get key)) r = some (.ok (r.get key), r) := rfl

theorem solo_pttl (key : String) :
    (redisServer τ).solo t (stmt (.pttl key)) r = some (.ok (some (r.pttl key)), r) := rfl

theorem solo_incr (key : String) :
    (redisServer τ).solo t (stmt (.incr key)) r =
      some (.ok (some (r.incr key).1), (r.incr key).2) := rfl

theorem solo_pexpire (key : String) (ms : Int) :
    (redisServer τ).solo t (stmt (.pexpire key ms)) r =
      some (.ok (r.find key).isSome, r.pexpire key ms) := rfl

variable [DecidableEq τ]

theorem solo_checkCommands (index : Nat) :
    (redisServer τ).solo t (checkCommands index buckets) r =
      some (.ok (fallbackCheck index buckets r).1, (fallbackCheck index buckets r).2) := by
  induction buckets generalizing index with
  | nil => rfl
  | cons bucket rest ih =>
      unfold checkCommands fallbackCheck renew
      rw [Machine.solo_bind_ok (solo_get _), redisInt_default, Prog.pure_bind_eq]
      by_cases full : bucket.limit ≤ (r.get bucket.key).getD 0
      · rw [if_pos full, if_pos full, Machine.solo_bind_ok (solo_pttl _), redisInt_some,
          Prog.pure_bind_eq]
        simp only [fallbackLacks, decide_eq_true_eq]
        by_cases lacks : r.pttl bucket.key < 1
        · rw [if_pos lacks, if_pos lacks, Machine.solo_bind_ok (solo_pexpire _ _)]
          rfl
        · rw [if_neg lacks, if_neg lacks]
          rfl
      · rw [if_neg full, if_neg full]
        exact ih (index + 1)

theorem solo_incrementCommands (bucket : GroupedBucketSpec) :
    (redisServer τ).solo t (incrementCommands bucket) r =
      some (.ok (), increment fallbackLacks bucket.key (bucket.expirySeconds * 1000) r) := by
  unfold incrementCommands increment
  rw [Machine.solo_bind_ok (solo_incr _), redisInt_some, Prog.pure_bind_eq,
    Machine.solo_bind_ok (solo_pttl _), redisInt_some, Prog.pure_bind_eq]
  simp only [fallbackLacks, decide_eq_true_eq]
  split_ifs with sets
  · rw [Machine.solo_bind_ok (solo_pexpire _ _)]
    rfl
  · rfl

theorem solo_consumeCommands :
    (redisServer τ).solo t (forEach buckets incrementCommands) r =
      some (.ok (), fallbackConsume buckets r) := by
  induction buckets generalizing r with
  | nil => rfl
  | cons bucket rest ih =>
      rw [forEach, Machine.solo_bind_ok (solo_incrementCommands bucket), ih]
      rfl

/-- With nobody in between, the commands do what the fallback does in one go. -/
theorem solo_compatibilityConsume (exposes : ∀ name ∈ ["get", "pttl", "incr", "pexpire"],
    name ∈ client.methods) :
    (redisServer τ).solo t (compatibilityConsumeGroupedBucketsWithSameKeys client buckets) r =
      some (.ok (compatibilityConsumeGroupedBuckets buckets r).1,
        (compatibilityConsumeGroupedBuckets buckets r).2) := by
  simp only [List.forall_mem_cons] at exposes
  obtain ⟨get, pttl, incr, pexpire, -⟩ := exposes
  unfold compatibilityConsumeGroupedBucketsWithSameKeys redisMethod
    compatibilityConsumeGroupedBuckets
  rw [Machine.solo_bind_ok (Machine.solo_raiseIf_passed (not_not.mpr get)),
    Machine.solo_bind_ok (Machine.solo_raiseIf_passed (not_not.mpr pttl)),
    Machine.solo_bind_ok (Machine.solo_raiseIf_passed (not_not.mpr incr)),
    Machine.solo_bind_ok (Machine.solo_raiseIf_passed (not_not.mpr pexpire)),
    Machine.solo_bind_ok (solo_checkCommands 0)]
  rcases fallbackCheck 0 buckets r with ⟨- | result, after⟩
  · exact Machine.solo_bind_ok solo_consumeCommands
  · rfl

theorem solo_evalGroupedBuckets :
    (redisServer τ).solo t (evalGroupedBuckets buckets) r =
      some (.ok (atomicConsumeGroupedBuckets buckets r).1,
        (atomicConsumeGroupedBuckets buckets r).2) := by
  unfold evalGroupedBuckets atomicConsumeGroupedBuckets scriptResult
  rw [Machine.solo_bind_ok (solo_eval _ _)]
  dsimp only
  rcases groupedFixedWindowConsume _ _ r with ⟨raw, after⟩
  dsimp only
  split_ifs <;> rfl

end Alone

end SaasTemplate.RateLimit
