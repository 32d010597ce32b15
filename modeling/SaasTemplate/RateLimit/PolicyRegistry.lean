import Mathlib.Data.List.Sort
import Mathlib.Data.List.Forall2
import Mathlib.Data.String.Basic
import SaasTemplate.RateLimit.GroupedChecks

/-! # The registry of effective policies

A spec gives the defaults of a policy; the mode and an override of the settings change them. The
settings of staging and prod are refused where an override opens a policy that is sensitive or
critical; what the registry then holds decides about a group of checks when the backend fails.
-/

namespace SaasTemplate.RateLimit

inductive RateLimitSensitivity where
  | normal
  | sensitive
  | critical
  deriving DecidableEq, Repr

inductive RateLimitMode where
  | normal
  | strict
  | relaxed
  | panic
  deriving DecidableEq, Repr

inductive Environment where
  | local_
  | dev
  | test
  | staging
  | prod
  deriving DecidableEq, Repr

structure RateLimitPolicySpec where
  name : String
  defaultLimit : Int
  defaultWindowSeconds : Int
  defaultFailOpen : Bool
  sensitivity : RateLimitSensitivity
  deriving DecidableEq, Repr

/-- A policy with the fields that no check reads. -/
structure RegisteredPolicy extends RateLimitPolicy where
  sensitivity : RateLimitSensitivity
  overrideApplied : Bool
  deriving DecidableEq, Repr

/-- The windows that have a `RateLimitItem`. -/
def supportedWindows : List Int := [60, 300, 3600, 86400]

/-- `RateLimitPolicyOverride`, with what its fields and its validator demand. -/
structure RateLimitPolicyOverride where
  limit : Option Int
  windowSeconds : Option Int
  failOpen : Option Bool
  limit_pos : ∀ n ∈ limit, 0 < n
  window_supported : ∀ n ∈ windowSeconds, n ∈ supportedWindows

/-- What the start of the application reads of the settings. The overrides are a dictionary. -/
structure PolicySettings where
  environment : Environment
  rateLimiting : RateLimitingSettings
  mode : RateLimitMode
  policies : List (String × RateLimitPolicyOverride)
  distinct : (policies.map (·.1)).Nodup

/-! ## Specs -/

def preAuthPolicy : RateLimitPolicySpec := ⟨"pre_auth", 120, 60, true, .sensitive⟩

def authenticatedDefaultPolicy : RateLimitPolicySpec :=
  ⟨"authenticated_default", 120, 60, true, .normal⟩

def tenantReadPolicy : RateLimitPolicySpec := ⟨"tenant_read", 120, 60, true, .normal⟩

def tenantWritePolicy : RateLimitPolicySpec := ⟨"tenant_write", 30, 60, false, .sensitive⟩

def tenantWriteOrganisationPolicy : RateLimitPolicySpec :=
  ⟨"tenant_write_organisation", 60, 60, false, .sensitive⟩

def organisationCreatePolicy : RateLimitPolicySpec :=
  ⟨"organisation_create", 5, 3600, false, .critical⟩

def platformReadPolicy : RateLimitPolicySpec := ⟨"platform_read", 60, 60, false, .sensitive⟩

def auditReadPolicy : RateLimitPolicySpec := ⟨"audit_read", 30, 60, false, .critical⟩

def inviteMutationPolicy : RateLimitPolicySpec := ⟨"invite_mutation", 30, 3600, false, .sensitive⟩

def inviteAcceptPolicy : RateLimitPolicySpec := ⟨"invite_accept", 5, 300, false, .critical⟩

def inviteAcceptTokenPolicy : RateLimitPolicySpec :=
  ⟨"invite_accept_token", 5, 300, false, .critical⟩

def inviteCreatePolicy : RateLimitPolicySpec := ⟨"invite_create", 20, 3600, false, .sensitive⟩

def inviteCreateOrganisationPolicy : RateLimitPolicySpec :=
  ⟨"invite_create_organisation", 50, 3600, false, .sensitive⟩

def inviteCreateOrganisationDailyPolicy : RateLimitPolicySpec :=
  ⟨"invite_create_organisation_daily", 200, 86400, false, .critical⟩

def inviteCreateTargetEmailPolicy : RateLimitPolicySpec :=
  ⟨"invite_create_target_email", 3, 86400, false, .critical⟩

def inviteCreateTargetDomainPolicy : RateLimitPolicySpec :=
  ⟨"invite_create_target_domain", 50, 86400, false, .sensitive⟩

def inviteResendInvitePolicy : RateLimitPolicySpec :=
  ⟨"invite_resend_invite", 5, 3600, false, .sensitive⟩

def inviteResendOrganisationDailyPolicy : RateLimitPolicySpec :=
  ⟨"invite_resend_organisation_daily", 200, 86400, false, .sensitive⟩

def platformWritePolicy : RateLimitPolicySpec := ⟨"platform_write", 30, 60, false, .critical⟩

def platformStaffWritePolicy : RateLimitPolicySpec :=
  ⟨"platform_staff_write", 10, 60, false, .critical⟩

def privacyDsrSubmitPolicy : RateLimitPolicySpec :=
  ⟨"privacy_dsr_submit", 5, 86400, false, .critical⟩

def privacyExportDownloadUrlPolicy : RateLimitPolicySpec :=
  ⟨"privacy_export_download_url", 10, 300, false, .critical⟩

/-- `_REGISTERED_POLICY_SPECS`. -/
def registeredPolicySpecs : List RateLimitPolicySpec :=
  [preAuthPolicy, authenticatedDefaultPolicy, tenantReadPolicy, tenantWritePolicy,
    tenantWriteOrganisationPolicy, organisationCreatePolicy, inviteAcceptPolicy,
    inviteAcceptTokenPolicy, inviteCreatePolicy, inviteCreateOrganisationPolicy,
    inviteCreateOrganisationDailyPolicy, inviteCreateTargetEmailPolicy,
    inviteCreateTargetDomainPolicy, inviteMutationPolicy, inviteResendInvitePolicy,
    inviteResendOrganisationDailyPolicy, platformReadPolicy, auditReadPolicy, platformWritePolicy,
    platformStaffWritePolicy, privacyDsrSubmitPolicy, privacyExportDownloadUrlPolicy]

/-- The round of the loop for a policy. -/
def addPolicySpec (registry : List (String × RateLimitPolicySpec)) (policy : RateLimitPolicySpec) :
    Except String (List (String × RateLimitPolicySpec)) :=
  if policy.name ∈ registry.map (·.1) then
    .error s!"Duplicate rate limit policy name: {policy.name}"
  else .ok (registry ++ [(policy.name, policy)])

def buildPolicySpecRegistry (policies : List RateLimitPolicySpec) :
    Except String (List (String × RateLimitPolicySpec)) :=
  policies.foldlM addPolicySpec []

/-- `_POLICY_SPEC_REGISTRY`. -/
def policySpecRegistry : Except String (List (String × RateLimitPolicySpec)) :=
  buildPolicySpecRegistry registeredPolicySpecs

/-- A module whose registry is not built is not imported, so that nothing calls its functions. -/
def getRateLimitPolicy (name : String) : Except String RateLimitPolicySpec := do
  let registry ← policySpecRegistry
  match registry.lookup name with
  | some spec => pure spec
  | none => .error s!"Unknown rate limit policy: {name}"

def getKnownRateLimitPolicyNames : Except String (List String) := do
  let registry ← policySpecRegistry
  pure (registry.map (·.1))

/-! ## Effective policies -/

/-- `RateLimitItemPerMinute`, `RateLimitItemPerHour` and `RateLimitItemPerDay`. -/
def rateLimitItemPerMinute (limit multiples : Int) : RateLimitItem := ⟨limit, 60 * multiples⟩

def rateLimitItemPerHour (limit : Int) : RateLimitItem := ⟨limit, 3600⟩

def rateLimitItemPerDay (limit : Int) : RateLimitItem := ⟨limit, 86400⟩

/-- `_rate_limit_item_from_window`. -/
def rateLimitItemFromWindow (limit windowSeconds : Int) : Except String RateLimitItem :=
  if windowSeconds = 60 then .ok (rateLimitItemPerMinute limit 1)
  else if windowSeconds = 300 then .ok (rateLimitItemPerMinute limit 5)
  else if windowSeconds = 3600 then .ok (rateLimitItemPerHour limit)
  else if windowSeconds = 86400 then .ok (rateLimitItemPerDay limit)
  else .error (s!"Unsupported rate limit window_seconds: {windowSeconds}. " ++
    "Supported values are 60, 300, 3600, and 86400.")

/-- `_apply_mode_to_limit`. The limits of the specs are small, and their products with a half and
    a quarter are exact as floating-point numbers. -/
def applyModeToLimit (limit : Int) (mode : RateLimitMode) (sensitivity : RateLimitSensitivity) :
    Int :=
  match mode, sensitivity with
  | .strict, _ => max 1 (limit / 2)
  | .relaxed, _ => limit * 2
  | .panic, .sensitive => max 1 (limit / 2)
  | .panic, .critical => max 1 (limit / 4)
  | _, _ => limit

/-- `_apply_override`. -/
def applyOverride (spec : RateLimitPolicySpec) (mode : RateLimitMode)
    (override : Option RateLimitPolicyOverride) : Except String RegisteredPolicy := do
  let limit := applyModeToLimit spec.defaultLimit mode spec.sensitivity
  let closes := mode = .panic ∧ spec.sensitivity ∈ [.sensitive, .critical]
  let failOpen := if closes then false else spec.defaultFailOpen
  let limit := (override.bind (·.limit)).getD limit
  let windowSeconds := (override.bind (·.windowSeconds)).getD spec.defaultWindowSeconds
  let failOpen := (override.bind (·.failOpen)).getD failOpen
  let failOpen := if closes then false else failOpen
  let item ← rateLimitItemFromWindow limit windowSeconds
  pure ⟨⟨spec.name, item, failOpen⟩, spec.sensitivity, override.isSome⟩

/-- `_force_policy_fail_closed`. -/
def forcePolicyFailClosed (policy : RegisteredPolicy) : RegisteredPolicy :=
  if policy.failOpen then { policy with failOpen := false } else policy

/-- `_should_force_fail_closed_in_environment`. -/
def shouldForceFailClosedInEnvironment (settings : PolicySettings) (spec : RateLimitPolicySpec) :
    Bool :=
  settings.environment ∈ [.staging, .prod] ∧ spec.name = preAuthPolicy.name

/-- The round of the loop for a spec. -/
def registerPolicy (settings : PolicySettings) (spec : RateLimitPolicySpec) :
    Except String (String × RegisteredPolicy) := do
  let policy ← applyOverride spec settings.mode (settings.policies.lookup spec.name)
  pure (spec.name,
    if shouldForceFailClosedInEnvironment settings spec then forcePolicyFailClosed policy
    else policy)

/-- `sorted(set(overrides) - known_names)`. -/
def unknownNames (settings : PolicySettings) (known : List String) : List String :=
  ((settings.policies.map (·.1)).filter fun name => name ∉ known).insertionSort (· ≤ ·)

def buildEffectivePolicyRegistry (settings : PolicySettings) :
    Except String (List (String × RegisteredPolicy)) := do
  let unknown := unknownNames settings (← getKnownRateLimitPolicyNames)
  if unknown ≠ [] then
    .error ("Unknown rate limit policy override name(s): " ++ ", ".intercalate unknown)
  -- no two specs have one name, so every round adds an entry
  else registeredPolicySpecs.mapM (registerPolicy settings)

/-! ## Settings -/

def validateIdentifierSecretRequired (settings : PolicySettings) : Except String Unit :=
  if settings.rateLimiting.enabled ∧ settings.rateLimiting.identifierSecret.isNone then
    .error ("RATE_LIMITING__IDENTIFIER_SECRET is required when " ++ "RATE_LIMITING__ENABLED=true")
  else pure ()

def validatePolicyOverrideNames (settings : PolicySettings) : Except String Unit := do
  let unknown := unknownNames settings (← getKnownRateLimitPolicyNames)
  if unknown ≠ [] then
    .error ("Unknown rate limit policy override name(s): " ++ ", ".intercalate unknown)
  else pure ()

/-- The loop of `_validate_rate_limit_fail_open_overrides`. -/
def unsafeOverrides : List (String × RateLimitPolicyOverride) → Except String (List String)
  | [] => pure []
  | (policyName, override) :: rest =>
      if override.failOpen ≠ some true then unsafeOverrides rest
      else do
        let policySpec ← getRateLimitPolicy policyName
        let others ← unsafeOverrides rest
        pure (if policySpec.sensitivity ∈ [.sensitive, .critical] then policyName :: others
          else others)

def Environment.text : Environment → String
  | .local_ => "local"
  | .dev => "dev"
  | .test => "test"
  | .staging => "staging"
  | .prod => "prod"

/-- `_validate_rate_limit_fail_open_overrides`. -/
def validateRateLimitFailOpenOverrides (settings : PolicySettings) : Except String Unit := do
  let names ← unsafeOverrides settings.policies
  if names ≠ [] then
    .error ("RATE_LIMITING__POLICIES fail_open=true is not allowed for " ++
      s!"sensitive or critical policies in {settings.environment.text}: " ++
      ", ".intercalate (names.insertionSort (· ≤ ·)))
  else pure ()

/-- What `validate_environment_security` checks of the policies and the mode. -/
def validateEnvironmentSecurity (settings : PolicySettings) : Except String Unit := do
  if settings.environment ∈ [.staging, .prod] then
    validateRateLimitFailOpenOverrides settings
  if settings.environment = .prod ∧ settings.mode = .relaxed then
    .error "RATE_LIMITING__MODE=relaxed is not allowed in prod"

/-- Settings with which the application starts. -/
structure PolicySettings.Valid (settings : PolicySettings) : Prop where
  secret : validateIdentifierSecretRequired settings = .ok ()
  names : validatePolicyOverrideNames settings = .ok ()
  environment : validateEnvironmentSecurity settings = .ok ()

/-! ## Start -/

/-- The registry as the checks find it in the state of the application. -/
def asRegistry (registry : List (String × RegisteredPolicy)) (name : String) :
    Option RateLimitPolicy :=
  (registry.lookup name).map (·.toRateLimitPolicy)

/-- The URL of Redis, and what the packages make of it. -/
structure RateLimiterBackend where
  redisUrl : Option String
  limiter : Limiter
  groupedRedisClient : Option RedisClient
  storageClient : Option RedisClient

/-- `init_rate_limiter`, with the state that it leaves to the requests. -/
def initRateLimiter (settings : PolicySettings) (backend : RateLimiterBackend) :
    Except String LimitedRequest := do
  let policyRegistry ← buildEffectivePolicyRegistry settings
  if settings.rateLimiting.enabled = false then
    pure ⟨settings.rateLimiting, some ⟨none, some none, none⟩, some (asRegistry policyRegistry)⟩
  else if backend.redisUrl.getD "" = "" then
    .error "REDIS__URL is required when RATE_LIMITING__ENABLED=true"
  else
    pure ⟨settings.rateLimiting,
      some ⟨some backend.limiter, some backend.groupedRedisClient, backend.storageClient⟩,
      some (asRegistry policyRegistry)⟩

/-! ## Registries -/

section Registries

variable {α β ε κ : Type}

theorem exists_mapM_ok {f : α → Except ε β} {P : α → β → Prop} {xs : List α}
    (each : ∀ x ∈ xs, ∃ y, f x = .ok y ∧ P x y) :
    ∃ ys, xs.mapM f = .ok ys ∧ List.Forall₂ P xs ys := by
  induction xs with
  | nil => exact ⟨[], rfl, .nil⟩
  | cons x xs ih =>
      obtain ⟨y, first, here⟩ := each x List.mem_cons_self
      obtain ⟨ys, rest, others⟩ := ih fun other member => each other (List.mem_cons_of_mem _ member)
      refine ⟨y :: ys, ?_, .cons here others⟩
      rw [List.mapM_cons, first, rest]
      rfl

/-- A registry with an entry for each item, under distinct names. -/
theorem lookup_of_forall₂ [DecidableEq κ] {name : α → κ} {xs : List α} {x : α} {ys : List (κ × β)}
    (Q : α → β → Prop) (entries : List.Forall₂ (fun x y => y.1 = name x ∧ Q x y.2) xs ys)
    (distinct : (xs.map name).Nodup) (member : x ∈ xs) :
    ∃ b, ys.lookup (name x) = some b ∧ Q x b := by
  induction entries with
  | nil => cases member
  | @cons head entry xs ys here others ih =>
      obtain ⟨key, b⟩ := entry
      obtain ⟨rfl, fits⟩ := here
      obtain ⟨fresh, distinct⟩ := List.nodup_cons.mp distinct
      rw [List.lookup_cons]
      cases member with
      | head => exact ⟨b, by simp, fits⟩
      | tail _ member =>
          have differs : (name x == name head) = false := by
            rw [beq_eq_false_iff_ne]
            exact fun same => fresh (List.mem_map.mpr ⟨x, member, same⟩)
          rw [differs]
          exact ih distinct member

theorem exists_of_forall₂ {R : α → β → Prop} {xs : List α} {ys : List β} {x : α}
    (pairs : List.Forall₂ R xs ys) (member : x ∈ xs) : ∃ y ∈ ys, R x y := by
  induction pairs with
  | nil => cases member
  | cons here _ ih =>
      cases member with
      | head => exact ⟨_, List.mem_cons_self, here⟩
      | tail _ member =>
          obtain ⟨y, there, related⟩ := ih member
          exact ⟨y, List.mem_cons_of_mem _ there, related⟩

theorem forall₂_of_map {R : α → β → Prop} {f : α → β} {xs : List α} (each : ∀ x ∈ xs, R x (f x)) :
    List.Forall₂ R xs (xs.map f) := by
  rw [List.forall₂_map_right_iff, List.forall₂_same]
  exact each

end Registries

/-! ### Specs -/

variable {settings : PolicySettings} {spec : RateLimitPolicySpec}

theorem addPolicySpecs_ok {policies : List RateLimitPolicySpec}
    {front : List (String × RateLimitPolicySpec)} (distinct : (policies.map (·.name)).Nodup)
    (apart : ∀ policy ∈ policies, policy.name ∉ front.map (·.1)) :
    policies.foldlM addPolicySpec front =
      .ok (front ++ policies.map fun policy => (policy.name, policy)) := by
  induction policies generalizing front with
  | nil => simp [pure, Except.pure]
  | cons policy policies ih =>
      obtain ⟨fresh, distinct⟩ := List.nodup_cons.mp distinct
      rw [List.foldlM_cons, addPolicySpec, if_neg (apart policy List.mem_cons_self)]
      refine (ih distinct fun other member => ?_).trans (by simp)
      have differs : other.name ≠ policy.name := fun same =>
        fresh (List.mem_map.mpr ⟨other, member, same⟩)
      have before := apart other (List.mem_cons_of_mem _ member)
      rw [List.map_append, List.mem_append]
      simp only [List.map_cons, List.map_nil, List.mem_singleton, differs, or_false]
      exact before

theorem specs_distinct : (registeredPolicySpecs.map (·.name)).Nodup := by decide +kernel

theorem mem_sensitive {sensitivity : RateLimitSensitivity} :
    sensitivity ∈ [RateLimitSensitivity.sensitive, .critical] ↔ sensitivity ≠ .normal := by
  cases sensitivity <;> decide

/-- Every default is one that an override may set. -/
theorem specs_supported : ∀ spec ∈ registeredPolicySpecs,
    0 < spec.defaultLimit ∧ spec.defaultWindowSeconds ∈ supportedWindows := by decide

/-- Only the policy before authentication is sensitive and open by default. -/
theorem specs_closed : ∀ spec ∈ registeredPolicySpecs, spec.sensitivity ≠ .normal →
    spec.name ≠ preAuthPolicy.name → spec.defaultFailOpen = false := by decide +kernel

theorem policySpecRegistry_eq :
    policySpecRegistry = .ok (registeredPolicySpecs.map fun spec => (spec.name, spec)) :=
  addPolicySpecs_ok specs_distinct (by simp)

theorem getRateLimitPolicy_of_mem (registered : spec ∈ registeredPolicySpecs) :
    getRateLimitPolicy spec.name = .ok spec := by
  have entries : List.Forall₂ (fun spec (entry : String × RateLimitPolicySpec) =>
      entry.1 = spec.name ∧ entry.2 = spec) registeredPolicySpecs
        (registeredPolicySpecs.map fun spec => (spec.name, spec)) :=
    forall₂_of_map fun _ _ => ⟨rfl, rfl⟩
  obtain ⟨other, found, rfl⟩ := lookup_of_forall₂ (fun spec policy => policy = spec)
    entries specs_distinct registered
  simp only [getRateLimitPolicy, policySpecRegistry_eq, bind, Except.bind, found]
  rfl

/-! ### Settings that are valid -/

theorem unknownNames_nil (valid : settings.Valid) :
    unknownNames settings (registeredPolicySpecs.map (·.name)) = [] := by
  have names := valid.names
  simp only [validatePolicyOverrideNames, getKnownRateLimitPolicyNames, policySpecRegistry_eq,
    bind, Except.bind, pure, Except.pure, List.map_map, Function.comp_def] at names
  by_contra some_
  rw [if_pos some_] at names
  cases names

/-- A round that lists nothing. -/
theorem unsafeOverrides_cons {policyName : String} {override : RateLimitPolicyOverride}
    {rest : List (String × RateLimitPolicyOverride)}
    (safe : unsafeOverrides ((policyName, override) :: rest) = .ok []) :
    unsafeOverrides rest = .ok [] ∧ (override.failOpen = some true →
      ∃ policySpec, getRateLimitPolicy policyName = .ok policySpec ∧
        policySpec.sensitivity = .normal) := by
  rw [unsafeOverrides] at safe
  split_ifs at safe with closed
  · exact ⟨safe, fun opens => absurd opens closed⟩
  cases found : getRateLimitPolicy policyName with
  | error e =>
      rw [found] at safe
      cases safe
  | ok policySpec =>
      cases later : unsafeOverrides rest with
      | error e =>
          rw [found, later] at safe
          cases safe
      | ok others =>
          rw [found, later] at safe
          have listed : (if policySpec.sensitivity ∈ [.sensitive, .critical] then
              policyName :: others else others) = [] := Except.ok.inj safe
          split_ifs at listed with sensitive
          obtain rfl := listed
          rw [mem_sensitive, not_not] at sensitive
          exact ⟨rfl, fun _ => ⟨policySpec, rfl, sensitive⟩⟩

/-- Where no override is listed, an open one is of a normal policy. -/
theorem unsafeOverrides_nil {entries : List (String × RateLimitPolicyOverride)}
    {override : RateLimitPolicyOverride} (safe : unsafeOverrides entries = .ok [])
    (member : (spec.name, override) ∈ entries) (opens : override.failOpen = some true)
    (registered : spec ∈ registeredPolicySpecs) : spec.sensitivity = .normal := by
  induction entries with
  | nil => cases member
  | cons entry rest ih =>
      obtain ⟨others, first⟩ := unsafeOverrides_cons safe
      cases member with
      | head =>
          obtain ⟨policySpec, found, normal⟩ := first opens
          obtain rfl : spec = policySpec :=
            Except.ok.inj ((getRateLimitPolicy_of_mem registered).symm.trans found)
          exact normal
      | tail _ member => exact ih others member

theorem unsafeOverrides_of_valid (valid : settings.Valid)
    (guarded : settings.environment ∈ [.staging, .prod]) :
    unsafeOverrides settings.policies = .ok [] := by
  have checked := valid.environment
  rw [validateEnvironmentSecurity, if_pos guarded] at checked
  cases listed : unsafeOverrides settings.policies with
  | error e =>
      rw [validateRateLimitFailOpenOverrides, listed] at checked
      cases checked
  | ok names =>
      by_contra some_
      have here : names ≠ [] := fun none => some_ (none ▸ rfl)
      simp only [validateRateLimitFailOpenOverrides, listed, bind, Except.bind, if_pos here]
        at checked
      cases checked

/-! ### Effective policies -/

/-- What the settings decide: panic and the environment close a policy whatever its override. -/
def FailsClosed (settings : PolicySettings) (spec : RateLimitPolicySpec) : Prop :=
  (settings.mode = .panic ∧ spec.sensitivity ≠ .normal) ∨
  (settings.environment ∈ [.staging, .prod] ∧ spec.name = preAuthPolicy.name) ∨
  ((settings.policies.lookup spec.name).bind (·.failOpen)).getD spec.defaultFailOpen = false

/-- The settings of staging and prod, and panic everywhere. -/
theorem failsClosed_of_sensitive (valid : settings.Valid)
    (guarded : settings.environment ∈ [.staging, .prod] ∨ settings.mode = .panic)
    (registered : spec ∈ registeredPolicySpecs) (sensitive : spec.sensitivity ≠ .normal) :
    FailsClosed settings spec := by
  by_cases panic : settings.mode = .panic
  · exact .inl ⟨panic, sensitive⟩
  have guarded := guarded.resolve_right panic
  by_cases first : spec.name = preAuthPolicy.name
  · exact .inr (.inl ⟨guarded, first⟩)
  have closed := specs_closed spec registered sensitive first
  refine .inr (.inr ?_)
  cases found : settings.policies.lookup spec.name with
  | none => exact closed
  | some override =>
      cases opens : override.failOpen with
      | none => simpa [opens] using closed
      | some value =>
          cases value with
          | false => simp [opens]
          | true =>
              obtain ⟨before, after, listed, -⟩ := List.lookup_eq_some_iff.mp found
              have member : (spec.name, override) ∈ settings.policies := by simp [listed]
              exact absurd (unsafeOverrides_nil (unsafeOverrides_of_valid valid guarded) member
                opens registered) sensitive

theorem rateLimitItemFromWindow_supported (limit : Int) {windowSeconds : Int}
    (supported : windowSeconds ∈ supportedWindows) :
    rateLimitItemFromWindow limit windowSeconds = .ok ⟨limit, windowSeconds⟩ := by
  simp only [supportedWindows, List.mem_cons, List.not_mem_nil, or_false] at supported
  obtain rfl | rfl | rfl | rfl := supported <;> rfl

theorem applyModeToLimit_pos {limit : Int} (positive : 0 < limit) (mode : RateLimitMode)
    (sensitivity : RateLimitSensitivity) : 0 < applyModeToLimit limit mode sensitivity := by
  unfold applyModeToLimit
  split <;> omega

/-- A policy that the registry holds for a spec. -/
structure Registered (settings : PolicySettings) (spec : RateLimitPolicySpec)
    (policy : RegisteredPolicy) : Prop where
  name : policy.name = spec.name
  amount_pos : 0 < policy.item.amount
  expiry : policy.item.expiry ∈ supportedWindows
  failOpen : policy.failOpen = false ↔ FailsClosed settings spec

theorem forcePolicyFailClosed_eq (policy : RegisteredPolicy) :
    forcePolicyFailClosed policy = { policy with failOpen := false } := by
  unfold forcePolicyFailClosed
  split_ifs with open_
  · rfl
  · rw [← Bool.eq_false_of_not_eq_true open_]

theorem registerPolicy_spec (settings : PolicySettings)
    (registered : spec ∈ registeredPolicySpecs) :
    ∃ entry, registerPolicy settings spec = .ok entry ∧
      entry.1 = spec.name ∧ Registered settings spec entry.2 := by
  obtain ⟨positive, supported⟩ := specs_supported spec registered
  generalize found : settings.policies.lookup spec.name = override
  have window : (override.bind (·.windowSeconds)).getD spec.defaultWindowSeconds ∈
      supportedWindows := by
    cases override with
    | none => exact supported
    | some override =>
        cases given : override.windowSeconds with
        | none => simpa [given] using supported
        | some seconds => simpa [given] using override.window_supported seconds given
  have amount : 0 < (override.bind (·.limit)).getD
      (applyModeToLimit spec.defaultLimit settings.mode spec.sensitivity) := by
    have default_ := applyModeToLimit_pos positive settings.mode spec.sensitivity
    cases override with
    | none => exact default_
    | some override =>
        cases given : override.limit with
        | none => simpa [given] using default_
        | some limit => simpa [given] using override.limit_pos limit given
  simp only [registerPolicy, found, applyOverride, rateLimitItemFromWindow_supported _ window]
  refine ⟨_, rfl, rfl, ?_, ?_, ?_, ?_⟩
  all_goals simp only [shouldForceFailClosedInEnvironment, forcePolicyFailClosed_eq, mem_sensitive]
  · split <;> rfl
  · split <;> exact amount
  · split <;> exact window
  · rw [FailsClosed, found]
    by_cases forced : settings.environment ∈ [.staging, .prod] ∧ spec.name = preAuthPolicy.name
    · rw [if_pos (by simpa using forced)]
      simp only [forced, true_and, true_or, or_true]
    by_cases closes : settings.mode = .panic ∧ spec.sensitivity ≠ .normal
    · simp only [closes, ne_eq, not_false_eq_true, and_self, if_true, ite_self, true_or]
    · rw [or_iff_right closes, or_iff_right forced, if_neg (by simpa using forced)]
      simp only [if_neg closes]

theorem buildEffectivePolicyRegistry_spec (valid : settings.Valid) :
    ∃ registry, buildEffectivePolicyRegistry settings = .ok registry ∧
      ∀ spec ∈ registeredPolicySpecs, ∃ policy, registry.lookup spec.name = some policy ∧
        Registered settings spec policy := by
  obtain ⟨registry, built, entries⟩ := exists_mapM_ok fun spec registered =>
    registerPolicy_spec settings registered
  refine ⟨registry, ?_, fun spec registered =>
    lookup_of_forall₂ (Registered settings) entries specs_distinct registered⟩
  simp only [buildEffectivePolicyRegistry, getKnownRateLimitPolicyNames, policySpecRegistry_eq,
    bind, Except.bind, pure, Except.pure, List.map_map, Function.comp_def, unknownNames_nil valid,
    ne_eq, not_true_eq_false, if_false]
  exact built

/-! ## The backend fails -/

variable {request : LimitedRequest}
  {checks : List (RateLimitPolicySpec × RateLimitBucket)}
  {registry : List (String × RegisteredPolicy)}

/-- The checks of a dependency, which names its policies by their specs. -/
def bySpec (checks : List (RateLimitPolicySpec × RateLimitBucket)) :
    List (PolicyRef × RateLimitBucket) :=
  checks.map fun check => (.spec check.1.name, check.2)

theorem exists_prepared (ops : LimiterOps)
    (holds : ∀ spec ∈ registeredPolicySpecs, ∃ policy, registry.lookup spec.name = some policy ∧
      Registered settings spec policy)
    (state : request.policyRegistry = some (asRegistry registry))
    (secret : request.settings.identifierSecret.isSome = true)
    (registered : ∀ check ∈ checks, check.1 ∈ registeredPolicySpecs) :
    ∃ preparedChecks,
      (bySpec checks).mapM (prepareBucketRateLimitCheck ops request) = .ok preparedChecks ∧
      List.Forall₂ (fun check prepared => (prepared.policy.failOpen = false ↔
        FailsClosed settings check.1)) checks preparedChecks := by
  obtain ⟨secret, given⟩ := Option.isSome_iff_exists.mp secret
  rw [bySpec, List.mapM_map]
  refine exists_mapM_ok fun check member => ?_
  obtain ⟨policy, found, fits⟩ := holds check.1 (registered check member)
  let identifier := buildBucketIdentifier ops check.2 secret
  refine ⟨⟨policy.toRateLimitPolicy, identifier, rateLimitNamespace request.settings.redisPrefix
    policy.toRateLimitPolicy identifier⟩, ?_, fits.failOpen⟩
  simp only [Function.comp_apply, prepareBucketRateLimitCheck, effectivePolicy, state, asRegistry,
    found, Option.map_some, given, bind, Except.bind, pure, Except.pure, identifier]

/-- A request of an application whose limiter started with valid settings. -/
structure Started (settings : PolicySettings) (request : LimitedRequest) : Prop where
  enabled : request.settings.enabled = true
  secret : request.settings.identifierSecret.isSome = true
  limiter : (request.runtime.bind (·.limiter)).isSome = true
  registry : ∃ registry, request.policyRegistry = some (asRegistry registry) ∧
    ∀ spec ∈ registeredPolicySpecs, ∃ policy, registry.lookup spec.name = some policy ∧
      Registered settings spec policy

theorem secret_of_valid (valid : settings.Valid)
    (enabled : settings.rateLimiting.enabled = true) :
    settings.rateLimiting.identifierSecret.isSome = true := by
  have checked := valid.secret
  rw [validateIdentifierSecretRequired] at checked
  split_ifs at checked with missing
  rw [Option.isSome_iff_ne_none]
  simpa [enabled] using missing

theorem initRateLimiter_spec (backend : RateLimiterBackend) (valid : settings.Valid)
    (enabled : settings.rateLimiting.enabled = true) (url : backend.redisUrl.getD "" ≠ "") :
    ∃ request, initRateLimiter settings backend = .ok request ∧ Started settings request := by
  obtain ⟨registry, built, holds⟩ := buildEffectivePolicyRegistry_spec valid
  let runtime : RateLimiterRuntime :=
    ⟨some backend.limiter, some backend.groupedRedisClient, backend.storageClient⟩
  refine ⟨⟨settings.rateLimiting, some runtime, some (asRegistry registry)⟩, ?_,
    enabled, secret_of_valid valid enabled, rfl, registry, rfl, holds⟩
  simp only [initRateLimiter, built, bind, Except.bind, enabled, url, Bool.true_eq_false, if_false]
  rfl

/-- No check by a registered spec fails for its policy. -/
theorem Started.effectivePolicy_ok (started : Started settings request)
    (registered : spec ∈ registeredPolicySpecs) :
    ∃ policy, effectivePolicy request (.spec spec.name) = .ok policy ∧ policy.name = spec.name ∧
      0 < policy.item.amount ∧ policy.item.expiry ∈ supportedWindows := by
  obtain ⟨registry, state, holds⟩ := started.registry
  obtain ⟨policy, found, fits⟩ := holds spec registered
  refine ⟨policy.toRateLimitPolicy, ?_, fits.name, fits.amount_pos, fits.expiry⟩
  simp only [effectivePolicy, state, asRegistry, found, Option.map_some]

/-- The answer to a group that fails closed. -/
def refusal : Except LimiterException Unit :=
  .error (.rateLimiterUnavailable "Rate limiter is temporarily unavailable.")

/-- An override of production that opens a normal policy, and one that does not say. -/
def productionSettings : PolicySettings where
  environment := .prod
  rateLimiting := ⟨true, "rate-limit", some "an identifier secret of 32 chars"⟩
  mode := .normal
  policies := [("tenant_read", ⟨some 10, none, some true, by simp, by simp⟩),
    ("tenant_write", ⟨some 5, some 300, none, by simp, by simp [supportedWindows]⟩)]
  distinct := by decide +kernel

def exampleBackend : RateLimiterBackend where
  redisUrl := some "redis://localhost:6379/0"
  limiter := ⟨true⟩
  groupedRedisClient := some ⟨["get", "pttl", "incr", "pexpire"]⟩
  storageClient := none

end SaasTemplate.RateLimit
