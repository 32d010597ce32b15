import Mathlib.Data.List.MinMax
import Mathlib.Data.List.Infix
import SaasTemplate.Isolation.FailingStatements
import SaasTemplate.RateLimit.Commands
import SaasTemplate.RateLimit.RetryAfter

/-! # Checking a group of rate limits

`check_rate_limits_for_buckets` with its three paths: the script, the fallback for Redis Cluster,
and the limiter of the `limits` package, one policy at a time. Metrics, logs and the clock of a
check are left out; a timeout is one of the exceptions that a command may raise.
-/

namespace SaasTemplate.RateLimit

open Isolation
open Isolation.Prog (stmt raise raiseIf orRaise forEach)
open CodePoints (Text ofString)

structure RateLimitItem where
  amount : Int
  expiry : Int
  deriving DecidableEq, Repr

structure RateLimitPolicy where
  name : String
  item : RateLimitItem
  failOpen : Bool
  deriving DecidableEq, Repr

/-- A `RateLimitPolicy`, or a `RateLimitPolicySpec` by its name. -/
inductive PolicyRef where
  | policy (policy : RateLimitPolicy)
  | spec (name : String)
  deriving DecidableEq, Repr

structure RateLimitBucket where
  kind : String
  rawValue : String
  deriving DecidableEq, Repr

structure RateLimitIdentifier where
  kind : String
  bucketKey : String
  deriving DecidableEq, Repr

structure PreparedRateLimitCheck where
  policy : RateLimitPolicy
  identifier : RateLimitIdentifier
  namespace_ : String
  deriving DecidableEq, Repr

structure RateLimitingSettings where
  enabled : Bool
  redisPrefix : String
  identifierSecret : Option String

/-- A limiter of the `limits` package, or a test double without `test`. -/
structure Limiter where
  hasTest : Bool

/-- `groupedRedisClient` is `none` where the runtime does not have the attribute, and then the
    storage may hide a client. -/
structure RateLimiterRuntime where
  limiter : Option Limiter
  groupedRedisClient : Option (Option RedisClient)
  storageClient : Option RedisClient

/-- What a check reads of the request: the state of its application. -/
structure LimitedRequest where
  settings : RateLimitingSettings
  runtime : Option RateLimiterRuntime
  policyRegistry : Option (String → Option RateLimitPolicy)

/-- `str.lower`, and `hmac.new(secret, message, sha256).hexdigest()`. -/
structure LimiterOps where
  lower : Text → Text
  hmacSha256Hex : String → String → String

/-- The commands of a limiter. The answer about a window is its reset time less the time now,
    rounded up. -/
inductive LimiterCommand where
  | test (item : RateLimitItem) (namespace_ bucketKey : String)
  | hit (item : RateLimitItem) (namespace_ bucketKey : String)
  | getWindowStats (item : RateLimitItem) (namespace_ bucketKey : String)
  deriving DecidableEq, Repr

abbrev LimiterCommand.Reply : LimiterCommand → Type
  | .test .. => Bool
  | .hit .. => Bool
  | .getWindowStats .. => Int

abbrev LimiterProg (α : Type) : Type :=
  Prog (RedisCommand ⊕ LimiterCommand) (Sum.elim RedisCommand.Reply LimiterCommand.Reply)
    LimiterException α

def askLimiter (command : LimiterCommand) : LimiterProg command.Reply := stmt (Sum.inr command)

variable (ops : LimiterOps)

/-! ## Exceptions -/

/-- `_RATE_LIMIT_BACKEND_ERRORS`. -/
def rateLimitBackendErrors : List ErrorClass :=
  [.redisConnectionError, .redisTimeoutError, .redisError, .timeoutError, .runtimeError]

/-- `_RATE_LIMIT_STATS_FALLBACK_ERRORS`. -/
def rateLimitStatsFallbackErrors : List ErrorClass := rateLimitBackendErrors ++ [.attributeError]

/-- `isinstance(exc, classes)`. -/
def LimiterException.isIn (classes : List ErrorClass) : LimiterException → Bool
  | .raised exc => exc.errorClass ∈ classes
  | _ => false

/-- `text.replace("_", "").replace("-", "")`. -/
def compact (text : Text) : Text := text.filter fun c => c ≠ 95 ∧ c ≠ 45

/-- `part in text`. -/
def occursIn (part : String) (text : Text) : Bool := decide (ofString part <:+: text)

/-- `text.split(maxsplit=1)[0].lstrip("-")`, for a text that is not blank. -/
def firstToken (text : Text) : Text :=
  ((text.dropWhile CodePoints.isSpace).takeWhile fun c => !CodePoints.isSpace c).dropWhile (· == 45)

/-- `_CLUSTER_FALLBACK_PREFIXES`. -/
def clusterFallbackPrefixes : List String := ["moved", "ask", "tryagain", "clusterdown"]

def isRedisClusterFallbackError (exc : Raised) : Bool :=
  let errorName := compact (ops.lower exc.name)
  let errorText := ops.lower (CodePoints.strip exc.text)
  let compactText := compact errorText
  let token := if errorText.isEmpty then [] else firstToken errorText
  (occursIn "crossslot" errorName || occursIn "crossslot" compactText ||
    occursIn "cross slot" errorText || occursIn "same slot" errorText ||
    occursIn "same key slot" errorText) ||
  (clusterFallbackPrefixes.map ofString).contains token ||
  ["moved", "askerror", "tryagain", "clusterdown"].any fun marker => occursIn marker errorName

/-- `_handle_rate_limit_backend_error`. -/
def handleRateLimitBackendError (policy : RateLimitPolicy) : LimiterProg Bool :=
  if policy.failOpen then pure true
  else raise (.rateLimiterUnavailable "Rate limiter is temporarily unavailable.")

/-- `except _RATE_LIMIT_BACKEND_ERRORS as exc` around a part of a check; `none` is the return of
    a policy that fails open. -/
def orFailOpen {α : Type} (policy : RateLimitPolicy) (body : LimiterProg α) :
    LimiterProg (Option α) :=
  (body >>= fun a => pure (some a)).handle fun e =>
    if e.isIn rateLimitBackendErrors then
      handleRateLimitBackendError policy >>= fun open_ => if open_ then pure none else raise e
    else raise e

/-! ## Preparing -/

def rateLimitNamespace (redisPrefix : String) (policy : RateLimitPolicy)
    (identifier : RateLimitIdentifier) : String :=
  s!"{redisPrefix}:{policy.name}:{identifier.kind}"

def buildBucketKey (message secret : String) : String :=
  "rlid:v1:hmac-sha256:" ++ ops.hmacSha256Hex secret message

def buildBucketIdentifier (bucket : RateLimitBucket) (identifierSecret : String) :
    RateLimitIdentifier :=
  ⟨bucket.kind, buildBucketKey ops (bucket.kind ++ ":" ++ bucket.rawValue) identifierSecret⟩

/-- `_effective_policy`. -/
def effectivePolicy (request : LimitedRequest) : PolicyRef → Except LimiterException RateLimitPolicy
  | .policy policy => .ok policy
  | .spec name =>
      match request.policyRegistry with
      | none => .error (runtimeError "Rate limit policy registry has not been initialised")
      | some registry =>
          match registry name with
          | some policy => .ok policy
          | none => .error (.raised ⟨.other, ofString "ValueError",
              ofString s!"Unknown rate limit policy: {name}"⟩)

/-- `_prepare_bucket_rate_limit_check`. -/
def prepareBucketRateLimitCheck (request : LimitedRequest) (check : PolicyRef × RateLimitBucket) :
    Except LimiterException PreparedRateLimitCheck := do
  let policy ← effectivePolicy request check.1
  match request.settings.identifierSecret with
  | none => .error (.rateLimiterUnavailable "Rate limiter is unavailable.")
  | some secret =>
      let identifier := buildBucketIdentifier ops check.2 secret
      pure ⟨policy, identifier, rateLimitNamespace request.settings.redisPrefix policy identifier⟩

/-! ## One policy at a time -/

/-- `_retry_after_for_identifier`. -/
def retryAfterForIdentifier (check : PreparedRateLimitCheck) : LimiterProg String :=
  Prog.handle (do
      let secondsLeft ← askLimiter (.getWindowStats check.policy.item check.namespace_
        check.identifier.bucketKey)
      pure (toString (max 1 secondsLeft)))
    fun e => if e.isIn rateLimitStatsFallbackErrors then pure (toString check.policy.item.expiry)
      else raise e

def raiseTooManyRequests (check : PreparedRateLimitCheck) : LimiterProg Unit := do
  let retryAfter ← retryAfterForIdentifier check
  raise (.tooManyRequests retryAfter)

/-- What both sweeps do with the answer of the limiter. -/
def withLimiterAnswer (check : PreparedRateLimitCheck) (command : LimiterProg Bool) :
    LimiterProg Unit := do
  match ← orFailOpen check.policy command with
  | none => pure ()
  | some allowed => if allowed then pure () else raiseTooManyRequests check

def runtimeLimiter (request : LimitedRequest) : LimiterProg Limiter :=
  orRaise (request.runtime.bind (·.limiter))
    (.rateLimiterUnavailable "Rate limiter is unavailable.")

/-- `_test_rate_limit_for_identifier`. -/
def testRateLimitForIdentifier (request : LimitedRequest) (check : PreparedRateLimitCheck) :
    LimiterProg Unit := do
  let limiter ← runtimeLimiter request
  if limiter.hasTest then
    withLimiterAnswer check (askLimiter (.test check.policy.item check.namespace_
      check.identifier.bucketKey))
  else pure ()

/-- `_check_rate_limit_for_identifier`. -/
def checkRateLimitForIdentifier (request : LimitedRequest) (check : PreparedRateLimitCheck) :
    LimiterProg Unit := do
  let _ ← runtimeLimiter request
  withLimiterAnswer check (askLimiter (.hit check.policy.item check.namespace_
    check.identifier.bucketKey))

def checkGroupedRateLimitsWithCompatibilityFallback (request : LimitedRequest)
    (preparedChecks : List PreparedRateLimitCheck) : LimiterProg Unit := do
  forEach preparedChecks (testRateLimitForIdentifier request)
  forEach preparedChecks (checkRateLimitForIdentifier request)

/-! ## The group -/

/-- `_grouped_redis_client_from_runtime`. -/
def groupedRedisClientFromRuntime (runtime : Option RateLimiterRuntime) : Option RedisClient :=
  runtime.bind fun runtime => runtime.groupedRedisClient.getD runtime.storageClient

/-- `min(prepared_checks, key=lambda prepared: prepared.policy.fail_open)`: `False` is less
    than `True`. -/
def strictestPreparedCheck (preparedChecks : List PreparedRateLimitCheck) :
    Option PreparedRateLimitCheck :=
  preparedChecks.argmin (·.policy.failOpen)

/-- `build_grouped_redis_key`. -/
def buildGroupedRedisKey (namespace_ bucketKey : String) : String :=
  "\x7brl-grouped-v1\x7d:" ++ namespace_ ++ ":" ++ bucketKey

def bucketSpec (check : PreparedRateLimitCheck) : GroupedBucketSpec :=
  ⟨buildGroupedRedisKey check.namespace_ check.identifier.bucketKey, check.policy.item.amount,
    check.policy.item.expiry⟩

def raiseGroupedResult (result : GroupedConsumeResult) : LimiterProg Unit :=
  match handleGroupedRedisResult result with
  | .ok _ => pure ()
  | .error (_, retryAfter) => raise (.tooManyRequests retryAfter)

/-- The branch for errors of Redis Cluster. -/
def clusterFallback (client : RedisClient) (buckets : List GroupedBucketSpec)
    (strictest : PreparedRateLimitCheck) : LimiterProg Unit := do
  match ← orFailOpen strictest.policy
      (compatibilityConsumeGroupedBucketsWithSameKeys client buckets).inLeft with
  | none => pure ()
  | some result => raiseGroupedResult result

/-- `except Exception as exc` around the script. -/
def handleGroupedException (client : RedisClient) (buckets : List GroupedBucketSpec)
    (preparedChecks : List PreparedRateLimitCheck) (e : LimiterException) : LimiterProg Unit := do
  let strictest := orRaise (strictestPreparedCheck preparedChecks) (.raised ⟨.other,
    ofString "ValueError", ofString "min() iterable argument is empty"⟩)
  match e with
  | .raised exc =>
      if isRedisClusterFallbackError ops exc then
        let strictest ← strictest
        clusterFallback client buckets strictest
      else if e.isIn rateLimitBackendErrors then
        let strictest ← strictest
        let open_ ← handleRateLimitBackendError strictest.policy
        if open_ then pure () else raise e
      else raise e
  | e => raise e

/-- `check_rate_limits_for_buckets`. -/
def checkRateLimitsForBuckets (request : LimitedRequest)
    (checks : List (PolicyRef × RateLimitBucket)) : LimiterProg Unit :=
  if request.settings.enabled = false then pure ()
  else if checks.isEmpty then pure ()
  else
    match checks.mapM (prepareBucketRateLimitCheck ops request) with
    | .error e => raise e
    | .ok preparedChecks =>
        match groupedRedisClientFromRuntime request.runtime with
        | some client => do
            let buckets := preparedChecks.map bucketSpec
            match ← Prog.attempt (evalGroupedBuckets buckets).inLeft with
            | .ok result => raiseGroupedResult result
            | .error e => handleGroupedException ops client buckets preparedChecks e
        | none => checkGroupedRateLimitsWithCompatibilityFallback request preparedChecks

/-! ## When nothing works -/

section Failing

variable {ops} {request : LimitedRequest} {checks : List (PolicyRef × RateLimitBucket)}
  {preparedChecks : List PreparedRateLimitCheck} {check : PreparedRateLimitCheck}
  {policy : RateLimitPolicy} {client : RedisClient} {buckets : List GroupedBucketSpec} {α : Type}

/-- A backend error that the checks handle. -/
def IsHandled (e : LimiterException) : Prop := e.isIn rateLimitBackendErrors = true

/-- The group is refused where some policy fails closed, and passes where none does. -/
def Decides (preparedChecks : List PreparedRateLimitCheck)
    (outcome : Except LimiterException Unit) : Prop :=
  ((∃ check ∈ preparedChecks, check.policy.failOpen = false) → outcome =
    .error (.rateLimiterUnavailable "Rate limiter is temporarily unavailable.")) ∧
  ((∀ check ∈ preparedChecks, check.policy.failOpen = true) → outcome = .ok ())

theorem failing_evalGroupedBuckets :
    (evalGroupedBuckets buckets).Failing IsHandled fun r => ∃ e, IsHandled e ∧ r = .error e :=
  Prog.failing_bind.mpr (Prog.failing_stmt.mpr fun e handled => ⟨e, handled, rfl⟩)

theorem handled_runtimeError (text : String) : IsHandled (runtimeError text) := by
  simp [IsHandled, runtimeError, LimiterException.isIn, rateLimitBackendErrors]

/-- A group that is not empty begins with a command, or finds a method missing. -/
theorem failing_compatibilityConsume (some_ : buckets ≠ []) :
    (compatibilityConsumeGroupedBucketsWithSameKeys client buckets).Failing IsHandled fun r =>
      ∃ e, IsHandled e ∧ r = .error e := by
  have method : ∀ (name : String) {p : RedisProg GroupedConsumeResult},
      (p.Failing IsHandled fun r => ∃ e, IsHandled e ∧ r = .error e) →
      (redisMethod client name >>= fun _ => p).Failing IsHandled fun r =>
        ∃ e, IsHandled e ∧ r = .error e := fun name p rest =>
    Prog.failing_bind.mpr (Prog.failing_raiseIf.mpr
      ⟨fun _ => ⟨_, handled_runtimeError _, rfl⟩, fun _ => rest⟩)
  obtain ⟨bucket, rest, rfl⟩ := List.exists_cons_of_ne_nil some_
  refine method "get" (method "pttl" (method "incr" (method "pexpire" ?_)))
  refine Prog.failing_bind.mpr (Prog.failing_bind.mpr (Prog.failing_stmt.mpr fun e handled => ?_))
  exact ⟨e, handled, rfl⟩

/-- Where the body fails, the policy decides. -/
theorem failing_orFailOpen {body : LimiterProg α}
    (fails : body.Failing IsHandled fun r => ∃ e, IsHandled e ∧ r = .error e) :
    (orFailOpen policy body).Failing IsHandled fun r =>
      (policy.failOpen = false → r =
        .error (.rateLimiterUnavailable "Rate limiter is temporarily unavailable.")) ∧
      (policy.failOpen = true → r = .ok none) := by
  refine Prog.failing_handle.mpr (Prog.failing_bind.mpr (fails.mono ?_))
  rintro _ ⟨e, handled, rfl⟩
  simp only [show e.isIn rateLimitBackendErrors = true from handled, if_true,
    handleRateLimitBackendError]
  cases policy.failOpen <;> simp

/-! ### The limiter -/

variable {limiter : Limiter}

theorem failing_withLimiterAnswer {asks : LimiterProg Bool}
    (fails : asks.Failing IsHandled fun r => ∃ e, IsHandled e ∧ r = .error e) :
    (withLimiterAnswer check asks).Failing IsHandled fun r =>
      (check.policy.failOpen = false → r =
        .error (.rateLimiterUnavailable "Rate limiter is temporarily unavailable.")) ∧
      (¬check.policy.failOpen = false → r = .ok ()) := by
  refine Prog.failing_bind.mpr ((failing_orFailOpen fails).mono fun r policy => ?_)
  cases open_ : check.policy.failOpen with
  | true =>
      rw [policy.2 open_]
      simp
  | false =>
      rw [policy.1 open_]
      simp

theorem failing_askLimiter (command : LimiterCommand) :
    (askLimiter command).Failing IsHandled fun r => ∃ e, IsHandled e ∧ r = .error e := by
  intro e handled
  exact ⟨e, handled, rfl⟩

theorem runtimeLimiter_eq (there : request.runtime.bind (·.limiter) = some limiter) :
    runtimeLimiter request = pure limiter := by
  rw [runtimeLimiter, there]
  rfl

theorem failing_check (check : PreparedRateLimitCheck)
    (there : request.runtime.bind (·.limiter) = some limiter) :
    (checkRateLimitForIdentifier request check).Failing IsHandled fun r =>
      (check.policy.failOpen = false → r =
        .error (.rateLimiterUnavailable "Rate limiter is temporarily unavailable.")) ∧
      (¬check.policy.failOpen = false → r = .ok ()) := by
  rw [checkRateLimitForIdentifier, runtimeLimiter_eq there, Prog.pure_bind_eq]
  exact failing_withLimiterAnswer (failing_askLimiter (.hit _ _ _))

/-- A limiter without `test` lets every check through in the first sweep. -/
theorem failing_test (check : PreparedRateLimitCheck)
    (there : request.runtime.bind (·.limiter) = some limiter) :
    (testRateLimitForIdentifier request check).Failing IsHandled fun r =>
      (check.policy.failOpen = false ∧ limiter.hasTest = true → r =
        .error (.rateLimiterUnavailable "Rate limiter is temporarily unavailable.")) ∧
      (¬(check.policy.failOpen = false ∧ limiter.hasTest = true) → r = .ok ()) := by
  rw [testRateLimitForIdentifier, runtimeLimiter_eq there, Prog.pure_bind_eq]
  cases tests : limiter.hasTest with
  | true =>
      refine (failing_withLimiterAnswer (failing_askLimiter (.test _ _ _))).mono fun r decides => ?_
      simpa using decides
  | false => simp

theorem failing_compatibilityFallback (there : request.runtime.bind (·.limiter) = some limiter) :
    (checkGroupedRateLimitsWithCompatibilityFallback request preparedChecks).Failing IsHandled
      (Decides preparedChecks) := by
  have hits := Prog.failing_forEach fun check (_ : check ∈ preparedChecks) =>
    failing_check check there
  refine Prog.failing_bind.mpr ((Prog.failing_forEach fun check _ =>
    failing_test check there).mono fun r tested => ?_)
  by_cases stops : ∃ check ∈ preparedChecks, check.policy.failOpen = false ∧ limiter.hasTest = true
  · rw [tested.1 stops]
    obtain ⟨check, member, closed, -⟩ := stops
    refine ⟨fun _ => rfl, fun open_ => ?_⟩
    rw [open_ check member] at closed
    cases closed
  · rw [tested.2 (by simpa using stops)]
    refine hits.mono fun r decides => ⟨decides.1, fun open_ => decides.2 ?_⟩
    intro check member closed
    rw [open_ check member] at closed
    cases closed

/-! ### The client -/

/-- The strictest policy is closed exactly when some policy is. -/
theorem strictest_spec (some_ : preparedChecks ≠ []) :
    ∃ strictest, strictestPreparedCheck preparedChecks = some strictest ∧
      (strictest.policy.failOpen = false ↔
        ∃ check ∈ preparedChecks, check.policy.failOpen = false) := by
  cases least : strictestPreparedCheck preparedChecks with
  | none => exact absurd (List.argmin_eq_none.mp least) some_
  | some strictest =>
      refine ⟨strictest, rfl, fun closed => ⟨strictest, List.argmin_mem least, closed⟩, ?_⟩
      rintro ⟨check, member, closed⟩
      have bound := List.le_of_mem_argmin member least
      rw [closed] at bound
      exact Bool.eq_false_of_le_false bound

theorem decides_of_strictest {strictest : PreparedRateLimitCheck}
    {outcome : Except LimiterException Unit}
    (is : strictest.policy.failOpen = false ↔
      ∃ check ∈ preparedChecks, check.policy.failOpen = false)
    (closed : strictest.policy.failOpen = false → outcome =
      .error (.rateLimiterUnavailable "Rate limiter is temporarily unavailable."))
    (open_ : strictest.policy.failOpen = true → outcome = .ok ()) :
    Decides preparedChecks outcome := by
  refine ⟨fun some_ => closed (is.mpr some_), fun all => open_ ?_⟩
  by_contra not
  obtain ⟨check, member, fails⟩ := is.mp (by simpa using not)
  rw [all check member] at fails
  cases fails

theorem failing_clusterFallback {strictest : PreparedRateLimitCheck} (some_ : buckets ≠ [])
    (is : strictest.policy.failOpen = false ↔
      ∃ check ∈ preparedChecks, check.policy.failOpen = false) :
    (clusterFallback client buckets strictest).Failing IsHandled (Decides preparedChecks) := by
  have fails : ((compatibilityConsumeGroupedBucketsWithSameKeys client buckets).inLeft :
      LimiterProg GroupedConsumeResult).Failing IsHandled
        fun r => ∃ e, IsHandled e ∧ r = .error e :=
    Prog.failing_inLeft.mpr (failing_compatibilityConsume some_)
  refine Prog.failing_bind.mpr ((failing_orFailOpen fails).mono fun r policy => ?_)
  cases mode : strictest.policy.failOpen with
  | true =>
      rw [policy.2 mode]
      exact decides_of_strictest is (by simp [mode]) fun _ => rfl
  | false =>
      rw [policy.1 mode]
      exact decides_of_strictest is (fun _ => rfl) (by simp [mode])

theorem failing_handleGroupedException {e : LimiterException} (handled : IsHandled e)
    (some_ : preparedChecks ≠ []) :
    (handleGroupedException ops client (preparedChecks.map bucketSpec) preparedChecks e).Failing
      IsHandled (Decides preparedChecks) := by
  obtain ⟨strictest, least, is⟩ := strictest_spec some_
  cases e with
  | raised exc =>
      unfold handleGroupedException
      simp only [least, orRaise, Prog.pure_bind_eq,
        show (LimiterException.raised exc).isIn rateLimitBackendErrors = true from handled, if_true]
      split_ifs with cluster
      · exact failing_clusterFallback (by simpa using some_) is
      · unfold handleRateLimitBackendError
        cases mode : strictest.policy.failOpen with
        | true => exact decides_of_strictest is (by simp [mode]) fun _ => rfl
        | false => exact decides_of_strictest is (fun _ => rfl) (by simp [mode])
  | rateLimiterUnavailable => cases handled
  | tooManyRequests => cases handled

theorem prepared_ne_nil (some_ : checks ≠ [])
    (prepares : checks.mapM (prepareBucketRateLimitCheck ops request) = .ok preparedChecks) :
    preparedChecks ≠ [] := by
  rintro rfl
  obtain ⟨check, rest, rfl⟩ := List.exists_cons_of_ne_nil some_
  rw [List.mapM_cons] at prepares
  cases first : prepareBucketRateLimitCheck ops request check with
  | error e =>
      rw [first] at prepares
      cases prepares
  | ok prepared =>
      rw [first] at prepares
      cases later : rest.mapM (prepareBucketRateLimitCheck ops request) with
      | error e =>
          rw [later] at prepares
          cases prepares
      | ok others =>
          rw [later] at prepares
          cases prepares

theorem failing_checkRateLimitsForBuckets (enabled : request.settings.enabled = true)
    (some_ : checks ≠ [])
    (prepares : checks.mapM (prepareBucketRateLimitCheck ops request) = .ok preparedChecks)
    (backend : (groupedRedisClientFromRuntime request.runtime).isSome = true ∨
      (request.runtime.bind (·.limiter)).isSome = true) :
    (checkRateLimitsForBuckets ops request checks).Failing IsHandled (Decides preparedChecks) := by
  unfold checkRateLimitsForBuckets
  rw [if_neg (by simp [enabled]), if_neg (by simpa using some_), prepares]
  dsimp only
  cases found : groupedRedisClientFromRuntime request.runtime with
  | some client =>
      refine Prog.failing_bind.mpr (Prog.failing_attempt.mpr (Prog.failing_inLeft.mpr
        (failing_evalGroupedBuckets.mono ?_)))
      rintro _ ⟨e, handled, rfl⟩
      exact failing_handleGroupedException handled (prepared_ne_nil some_ prepares)
  | none =>
      rw [found] at backend
      obtain ⟨limiter, there⟩ := Option.isSome_iff_exists.mp (backend.resolve_left (by simp))
      exact failing_compatibilityFallback there

/-- When every command raises a backend error, the group is refused as unavailable where one of
    its policies fails closed and passes where none does: through the script, through the fallback
    for Redis Cluster and through the limiter. -/
theorem fail_modes_agree (enabled : request.settings.enabled = true) (some_ : checks ≠ [])
    (prepares : checks.mapM (prepareBucketRateLimitCheck ops request) = .ok preparedChecks)
    (backend : (groupedRedisClientFromRuntime request.runtime).isSome = true ∨
      (request.runtime.bind (·.limiter)).isSome = true) :
    (checkRateLimitsForBuckets ops request checks).Failing IsHandled (Decides preparedChecks) :=
  failing_checkRateLimitsForBuckets enabled some_ prepares backend

end Failing

def exampleLimiterOps : LimiterOps where
  lower text := text.map fun c => if 65 ≤ c ∧ c ≤ 90 then c + 32 else c
  hmacSha256Hex secret message := "digest of " ++ message ++ " under " ++ secret

def exampleRequest : LimitedRequest where
  settings := ⟨true, "rate-limit", some "an identifier secret of 32 chars"⟩
  runtime := some ⟨none, some (some ⟨["get", "pttl", "incr", "pexpire"]⟩), none⟩
  policyRegistry := none

/-- The second policy fails closed. -/
theorem fail_modes_agree_example :
    (checkRateLimitsForBuckets exampleLimiterOps exampleRequest
      [(.policy ⟨"tenant_read", ⟨120, 60⟩, true⟩, ⟨"user", "u1"⟩),
        (.policy ⟨"tenant_write", ⟨30, 60⟩, false⟩, ⟨"user", "u1"⟩)]).Failing IsHandled fun r =>
      r = .error (.rateLimiterUnavailable "Rate limiter is temporarily unavailable.") := by
  refine (fail_modes_agree rfl (by simp) rfl (.inl rfl)).mono fun r decides => decides.1 ?_
  exact ⟨_, List.mem_cons_of_mem _ List.mem_cons_self, rfl⟩

end SaasTemplate.RateLimit
