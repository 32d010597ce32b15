import SaasTemplate.Basics
import SaasTemplate.Isolation.Runs

/-! # Refreshing the signing keys

`JwtValidator._resolve_signing_key` for any number of verifications, interleaved where the code
awaits. A statement is what runs between two awaits. Of the keys only what the lookup reads is
kept; the time is that of `time.monotonic()`, and of `time.time()` for the cache.
-/

namespace SaasTemplate.Auth

open Isolation
open Isolation.Prog (stmt raise)

/-- A key that is not RSA, or cannot be loaded, has no public key. -/
structure Jwk where
  kid : Option String
  publicKey : Option Nat
  deriving DecidableEq, Repr

abbrev Jwks := List Jwk

inductive AuthError where
  | unauthorized (detail : String)
  deriving DecidableEq, Repr

structure AuthSettings where
  jwksCacheTtlSeconds : Int
  jwksRefreshCooldownSeconds : Int

structure CacheEntry where
  value : Jwks
  expiresAt : Int
  deriving DecidableEq, Repr

/-- From the stamp to the release of the lock. -/
structure ForcedRefresh where
  startedAt : Int
  endedAt : Option Int
  deriving DecidableEq, Repr

/-- A `JwtValidator` with its surroundings: the clocks, what the identity provider would answer
    now, which waits for the lock have timed out, and the forced refreshes so far, the last one
    first. -/
structure JwtValidator (τ : Type) where
  monotonic : Int
  time : Int
  provider : Except AuthError Jwks
  jwksCache : Option CacheEntry
  jwksRefreshLock : Option τ
  lastForcedJwksRefreshAt : Int
  timedOut : τ → Bool
  forced : List ForcedRefresh

/-- What a verification gets where it may not refresh, or leave to go on. -/
inductive Attempt where
  | declined (cached : Option Jwks)
  | proceeds
  deriving DecidableEq, Repr

inductive Stage where
  | beforeLock
  | withLock
  deriving DecidableEq, Repr

/-- Between two awaits: the look at the cache; the end of a fetch that nothing forces; the check
    of the cooldown before the wait for the lock; the same check after it, with the stamp, or the
    end of the wait; and the end of a forced refresh. -/
inductive Segment where
  | cachedJwks
  | fetchAndCacheJwks
  | tryRefresh (stage : Stage)
  | finishRefresh
  deriving DecidableEq, Repr

abbrev Segment.Answer : Segment → Type
  | .cachedJwks => Option Jwks
  | .fetchAndCacheJwks => Jwks
  | .tryRefresh _ => Attempt
  | .finishRefresh => Option Jwks

abbrev ValidatorProg (α : Type) : Type := Prog Segment Segment.Answer AuthError α

def cachedJwks : ValidatorProg (Option Jwks) := stmt Segment.cachedJwks

def fetchAndCacheJwks : ValidatorProg Jwks := stmt Segment.fetchAndCacheJwks

def tryRefresh (stage : Stage) : ValidatorProg Attempt := stmt (Segment.tryRefresh stage)

def finishRefresh : ValidatorProg (Option Jwks) := stmt Segment.finishRefresh

/-! ## The code -/

/-- `_validate_jwks_payload`. -/
def validateJwksPayload (jwks : Jwks) : Except AuthError Jwks :=
  if jwks.isEmpty then .error (.unauthorized "Invalid identity metadata") else .ok jwks

/-- `_resolve_signing_key_from_jwks` with `_public_key_from_jwk`. -/
def resolveSigningKeyFromJwks (jwks : Jwks) (kid : Option String) :
    Except AuthError (Option Nat) := do
  let keys ← validateJwksPayload jwks
  match keys.find? (·.kid = kid) with
  | none => pure none
  | some jwk =>
      match jwk.publicKey with
      | none => .error (.unauthorized "Invalid identity metadata")
      | some key => pure (some key)

/-- `_refresh_jwks_after_kid_miss`. -/
def refreshJwksAfterKidMiss : ValidatorProg (Option Jwks) := do
  match ← tryRefresh .beforeLock with
  | .declined cached => pure cached
  | .proceeds =>
      match ← tryRefresh .withLock with
      | .declined cached => pure cached
      | .proceeds => finishRefresh

/-- `_get_jwks`. -/
def getJwks : ValidatorProg Jwks := do
  match ← cachedJwks with
  | some jwks => pure jwks
  | none => fetchAndCacheJwks

def orRaise {α : Type} : Except AuthError α → ValidatorProg α
  | .ok a => pure a
  | .error e => raise e

/-- What `_resolve_signing_key` does with the refreshed set. -/
def resolveRefreshed (kid : Option String) (refreshed : Option Jwks) : ValidatorProg Nat := do
  match refreshed with
  | none => raise (.unauthorized "Invalid bearer token")
  | some jwks =>
      match ← orRaise (resolveSigningKeyFromJwks jwks kid) with
      | some key => pure key
      | none => raise (.unauthorized "Invalid bearer token")

/-- `_resolve_signing_key`. -/
def resolveSigningKey (kid : Option String) : ValidatorProg Nat := do
  let jwks ← getJwks
  match ← orRaise (resolveSigningKeyFromJwks jwks kid) with
  | some key => pure key
  | none =>
      let refreshed ← refreshJwksAfterKidMiss
      resolveRefreshed kid refreshed

section Machine

variable {τ : Type} [DecidableEq τ] (settings : AuthSettings)

namespace JwtValidator

/-- `self._jwks_cache.value if self._jwks_cache else None`. -/
def cachedValue (v : JwtValidator τ) : Option Jwks := v.jwksCache.map (·.value)

/-- `now - self._last_forced_jwks_refresh_at < cooldown`. -/
def cooling (v : JwtValidator τ) : Bool :=
  v.monotonic - v.lastForcedJwksRefreshAt < settings.jwksRefreshCooldownSeconds

/-- `_fetch_and_cache_jwks`, when the answer is there. -/
def fetchAndCacheJwks (v : JwtValidator τ) : Except AuthError Jwks × JwtValidator τ :=
  match v.provider >>= validateJwksPayload with
  | .error e => (.error e, v)
  | .ok jwks => (.ok jwks,
      { v with jwksCache := some ⟨jwks, v.time + settings.jwksCacheTtlSeconds⟩ })

/-- The stamp of a forced refresh, by the holder of the lock. -/
def force (t : τ) (v : JwtValidator τ) : JwtValidator τ :=
  { v with
    jwksRefreshLock := some t
    lastForcedJwksRefreshAt := v.monotonic
    forced := ⟨v.monotonic, none⟩ :: v.forced }

/-- `self._jwks_refresh_lock.release()` at the end of a forced refresh. -/
def release (v : JwtValidator τ) : JwtValidator τ :=
  { v with
    jwksRefreshLock := none
    forced := v.forced.modifyHead fun f => { f with endedAt := some v.monotonic } }

/-- The wait for the lock and the second check. -/
def tryWithLock (t : τ) (v : JwtValidator τ) : Option (Attempt × JwtValidator τ) :=
  match v.jwksRefreshLock with
  | some _ => if v.timedOut t then some (.declined v.cachedValue, v) else none
  | none =>
      if v.cooling settings then some (.declined v.cachedValue, v)
      else some (.proceeds, v.force t)

/-- The end of a forced refresh; the holder of the lock falls back to the cache. -/
def finishRefresh (t : τ) (v : JwtValidator τ) : Option (Option Jwks × JwtValidator τ) :=
  if v.jwksRefreshLock = some t then
    match v.fetchAndCacheJwks settings with
    | (.ok jwks, v) => some (some jwks, v.release)
    | (.error _, v) => some (v.cachedValue, v.release)
  else none

end JwtValidator

def Segment.exec (t : τ) :
    (s : Segment) → JwtValidator τ → Option (Except AuthError s.Answer × JwtValidator τ)
  | .cachedJwks, v => some (.ok (v.jwksCache.bind fun entry =>
      if v.time < entry.expiresAt then some entry.value else none), v)
  | .fetchAndCacheJwks, v => some (v.fetchAndCacheJwks settings)
  | .tryRefresh .beforeLock, v =>
      some (.ok (if v.cooling settings then .declined v.cachedValue else .proceeds), v)
  | .tryRefresh .withLock, v => (v.tryWithLock settings t).map fun out => (.ok out.1, out.2)
  | .finishRefresh, v => (v.finishRefresh settings t).map fun out => (.ok out.1, out.2)

/-- A task may be cancelled at every await, and its `finally` releases the lock. The clocks go on,
    the provider may answer differently at any time, and a wait may time out while somebody else
    has the lock. -/
def validatorTasks : Machine τ Segment Segment.Answer AuthError (JwtValidator τ) where
  exec t s v := s.exec settings t v
  fallible _ := False
  crash t v := if v.jwksRefreshLock = some t then v.release else v
  env v v' := v.monotonic ≤ v'.monotonic ∧ ∃ time provider timedOut, v' =
    { v with
      monotonic := v'.monotonic
      time := time
      provider := provider
      timedOut := timedOut }

/-! ## What holds of the validator -/

/-- The refresh is under way at some time during the cooldown before `now`. -/
def ForcedRefresh.During (cooldown now : Int) (f : ForcedRefresh) : Prop :=
  f.startedAt ≤ now ∧ ∀ e, f.endedAt = some e → now - cooldown < e

/-- Before the first forced refresh, nobody tries to refresh while the clock is below the
    cooldown. -/
def PastCooldown (_ : τ) (s : Segment) (v : JwtValidator τ) : Prop :=
  ∀ stage, s = .tryRefresh stage → v.forced = [] → settings.jwksRefreshCooldownSeconds ≤ v.monotonic

/-- A validator as `__init__` leaves it. -/
structure Fresh (v : JwtValidator τ) : Prop where
  unlocked : v.jwksRefreshLock = none
  never : v.forced = []
  stamp : v.lastForcedJwksRefreshAt = 0

structure Sound (v : JwtValidator τ) : Prop where
  started : ∀ f ∈ v.forced, f.startedAt ≤ v.monotonic
  ended : ∀ f ∈ v.forced, ∀ e, f.endedAt = some e → f.startedAt ≤ e
  apart : v.forced.Pairwise fun newer older =>
    older.startedAt ≤ newer.startedAt ∧
      settings.jwksRefreshCooldownSeconds ≤ newer.startedAt - older.startedAt
  last : ∀ f, v.forced.head? = some f → v.lastForcedJwksRefreshAt = f.startedAt
  never : v.forced = [] → v.lastForcedJwksRefreshAt = 0
  /-- Whoever has the lock is refreshing. -/
  running : v.jwksRefreshLock ≠ none → ∃ f, v.forced.head? = some f ∧ f.endedAt = none

variable {settings} {t : τ} {s : Segment} {v v' : JwtValidator τ}

omit [DecidableEq τ] in
theorem sound_of_fresh (h : Fresh v) : Sound settings v where
  started := by simp [h.never]
  ended := by simp [h.never]
  apart := by simp [h.never]
  last := by simp [h.never]
  never _ := h.stamp
  running locked := absurd h.unlocked locked

omit [DecidableEq τ] in
/-- Nothing depends on the cache. -/
theorem Sound.fetch (h : Sound settings v) : Sound settings (v.fetchAndCacheJwks settings).2 := by
  unfold JwtValidator.fetchAndCacheJwks
  split <;> exact ⟨h.started, h.ended, h.apart, h.last, h.never, h.running⟩

omit [DecidableEq τ] in
theorem Sound.force (h : Sound settings v) (warm : v.cooling settings = false) :
    Sound settings (v.force t) where
  started := List.forall_mem_cons.mpr ⟨Int.le_refl _, h.started⟩
  ended := List.forall_mem_cons.mpr ⟨by simp, h.ended⟩
  apart := by
    refine List.pairwise_cons.mpr ⟨fun older member => ?_, h.apart⟩
    simp only [JwtValidator.cooling, decide_eq_false_iff_not, Int.not_lt] at warm
    have before := h.started older member
    -- the last refresh is the newest of the earlier ones
    cases earlier : v.forced with
    | nil => simp [earlier] at member
    | cons newest rest =>
        have last := h.last newest (by simp [earlier])
        have ordered := h.apart
        rw [earlier, List.pairwise_cons] at ordered
        rw [earlier] at member
        rcases List.mem_cons.mp member with rfl | there
        · exact ⟨before, by rw [← last]; exact warm⟩
        · have later := (ordered.1 older there).1
          exact ⟨before, by dsimp only; omega⟩
  last f is := by
    cases is
    rfl
  never := by simp [JwtValidator.force]
  running _ := ⟨_, rfl, rfl⟩

omit [DecidableEq τ] in
theorem Sound.release (h : Sound settings v) : Sound settings v.release := by
  cases earlier : v.forced with
  | nil =>
      refine ⟨?_, ?_, ?_, ?_, fun _ => h.never earlier, fun locked => absurd rfl locked⟩ <;>
        simp [JwtValidator.release, earlier]
  | cons newest rest =>
      have started := h.started
      have ended := h.ended
      have apart := h.apart
      have last := h.last newest (by simp [earlier])
      rw [earlier] at started ended apart
      rw [List.pairwise_cons] at apart
      have newestStarted := started newest List.mem_cons_self
      refine ⟨?_, ?_, ?_, ?_, ?_, fun locked => absurd rfl locked⟩
      all_goals simp only [JwtValidator.release, earlier, List.modifyHead_cons]
      · exact List.forall_mem_cons.mpr ⟨newestStarted, fun f member =>
          started f (List.mem_cons_of_mem newest member)⟩
      · refine List.forall_mem_cons.mpr ⟨?_, fun f member =>
          ended f (List.mem_cons_of_mem newest member)⟩
        rintro e ⟨⟩
        exact newestStarted
      · exact List.pairwise_cons.mpr ⟨apart.1, apart.2⟩
      · rintro f ⟨⟩
        exact last
      · simp

omit [DecidableEq τ] in
theorem Sound.tryWithLock {attempt : Attempt} (h : Sound settings v)
    (executed : v.tryWithLock settings t = some (attempt, v')) : Sound settings v' := by
  unfold JwtValidator.tryWithLock at executed
  split at executed
  · split at executed <;> cases executed
    exact h
  · split at executed <;> cases executed
    · exact h
    · rename_i warm
      exact h.force (by simpa using warm)

theorem Sound.finishRefresh {jwks : Option Jwks} (h : Sound settings v)
    (executed : v.finishRefresh settings t = some (jwks, v')) : Sound settings v' := by
  have fetched := h.fetch
  unfold JwtValidator.finishRefresh at executed
  split at executed
  · split at executed <;> cases executed
    all_goals
      rename_i is
      rw [is] at fetched
      exact fetched.release
  · cases executed

theorem Sound.exec {r : Except AuthError s.Answer} (h : Sound settings v)
    (executed : s.exec settings t v = some (r, v')) : Sound settings v' := by
  cases s with
  | cachedJwks =>
      cases executed
      exact h
  | fetchAndCacheJwks =>
      have after : (v.fetchAndCacheJwks settings).2 = v' :=
        congrArg Prod.snd (Option.some.inj executed)
      exact after ▸ h.fetch
  | tryRefresh stage =>
      cases stage with
      | beforeLock =>
          cases executed
          exact h
      | withLock =>
          obtain ⟨out, tried, is⟩ := Option.map_eq_some_iff.mp executed
          cases is
          exact h.tryWithLock tried
  | finishRefresh =>
      obtain ⟨out, finished, is⟩ := Option.map_eq_some_iff.mp executed
      cases is
      exact h.finishRefresh finished

/-- A try that is declined falls into the cooldown of a forced refresh, or one is still under
    way. -/
theorem Sound.declined (h : Sound settings v) {stage : Stage} {cached : Option Jwks}
    (past : v.forced = [] → settings.jwksRefreshCooldownSeconds ≤ v.monotonic)
    (executed : (Segment.tryRefresh stage).exec settings t v = some (.ok (.declined cached), v')) :
    ∃ f ∈ v.forced, f.During settings.jwksRefreshCooldownSeconds v.monotonic := by
  have cools : v.cooling settings = true →
      ∃ f ∈ v.forced, f.During settings.jwksRefreshCooldownSeconds v.monotonic := by
    intro cooling
    simp only [JwtValidator.cooling, decide_eq_true_eq] at cooling
    cases earlier : v.forced with
    | nil =>
        have warm := past earlier
        rw [h.never earlier] at cooling
        omega
    | cons newest rest =>
        have member : newest ∈ v.forced := by simp [earlier]
        have last := h.last newest (by simp [earlier])
        refine ⟨newest, List.mem_cons_self, h.started newest member, fun e is => ?_⟩
        have after := h.ended newest member e is
        omega
  cases stage with
  | beforeLock =>
      by_cases cooling : v.cooling settings = true
      · exact cools cooling
      · simp [Segment.exec, cooling] at executed
  | withLock =>
      obtain ⟨⟨attempt, after⟩, tried, is⟩ := Option.map_eq_some_iff.mp executed
      cases is
      unfold JwtValidator.tryWithLock at tried
      split at tried
      · rename_i holder locked
        obtain ⟨f, first, unfinished⟩ := h.running (by simp [locked])
        have member := List.mem_of_head? first
        exact ⟨f, member, h.started f member, fun e is => by rw [unfinished] at is; cases is⟩
      · by_cases cooling : v.cooling settings = true
        · exact cools cooling
        · simp [cooling] at tried

omit [DecidableEq τ] in
theorem Sound.env (h : Sound settings v) (later : v.monotonic ≤ v'.monotonic) {time : Int}
    {provider : Except AuthError Jwks} {timedOut : τ → Bool}
    (is : v' = { v with
      monotonic := v'.monotonic
      time := time
      provider := provider
      timedOut := timedOut }) : Sound settings v' := by
  rw [is]
  exact ⟨fun f member => Int.le_trans (h.started f member) later, h.ended, h.apart, h.last, h.never,
    h.running⟩

/-! ## Runs -/

/-- The token that forces a refresh is resolved with what the refresh gets. -/
def UsesRefreshed (kid : Option String) : ValidatorProg Nat → Prop
  | .done _ => True
  | .call s k => (match s, k with
      | .finishRefresh, k => ∀ refreshed, k (.ok refreshed) = resolveRefreshed kid refreshed
      | _, _ => True) ∧ ∀ r, UsesRefreshed kid (k r)

theorem usesRefreshed_bind {α : Type} {kid : Option String} {p : ValidatorProg α}
    {f : α → ValidatorProg Nat} (only : p.Only (· ≠ .finishRefresh))
    (rest : ∀ a, UsesRefreshed kid (f a)) : UsesRefreshed kid (p >>= f) := by
  induction p with
  | done r =>
      cases r with
      | ok a => exact rest a
      | error e => exact trivial
  | call s k ih =>
      refine ⟨?_, fun r => ih r (only.2 r)⟩
      cases s with
      | finishRefresh => exact absurd rfl only.1
      | cachedJwks | fetchAndCacheJwks | tryRefresh => trivial

theorem only_any {α : Type} (p : ValidatorProg α) : p.Only fun _ => True := by
  induction p with
  | done r => trivial
  | call s k ih => exact ⟨trivial, ih⟩

theorem only_orRaise {α : Type} {P : Segment → Prop} (outcome : Except AuthError α) :
    (orRaise outcome).Only P := by
  cases outcome <;> trivial

theorem usesRefreshed_resolveRefreshed (kid : Option String) (refreshed : Option Jwks) :
    UsesRefreshed kid (resolveRefreshed kid refreshed) := by
  cases refreshed with
  | none => exact trivial
  | some jwks =>
      refine usesRefreshed_bind (only_orRaise _) fun key => ?_
      cases key <;> exact trivial

theorem usesRefreshed_finishRefresh (kid : Option String) :
    UsesRefreshed kid (finishRefresh >>= resolveRefreshed kid) := by
  refine ⟨fun _ => rfl, fun r => ?_⟩
  cases r with
  | ok refreshed => exact usesRefreshed_resolveRefreshed kid refreshed
  | error e => exact trivial

theorem usesRefreshed_resolveSigningKey (kid : Option String) :
    UsesRefreshed kid (resolveSigningKey kid) := by
  have other : ∀ {s : Segment}, s ≠ .finishRefresh →
      (stmt s : ValidatorProg s.Answer).Only (· ≠ .finishRefresh) :=
    fun differs => Prog.only_stmt.mpr differs
  refine usesRefreshed_bind (Prog.only_bind (other nofun) fun cached => ?_) fun jwks => ?_
  · cases cached with
    | none => exact other nofun
    | some jwks => trivial
  · refine usesRefreshed_bind (only_orRaise _) fun key => ?_
    cases key with
    | some key => exact trivial
    | none =>
        dsimp only
        rw [refreshJwksAfterKidMiss, Prog.bind_assoc]
        refine usesRefreshed_bind (other nofun) fun attempt => ?_
        cases attempt with
        | declined cached => exact usesRefreshed_resolveRefreshed kid cached
        | proceeds =>
            dsimp only
            rw [Prog.bind_assoc]
            refine usesRefreshed_bind (other nofun) fun attempt => ?_
            cases attempt with
            | declined cached => exact usesRefreshed_resolveRefreshed kid cached
            | proceeds => exact usesRefreshed_finishRefresh kid

/-- What a configuration of a run shows, where the next step is an `allowed` one. -/
structure Refreshes (settings : AuthSettings) (allowed : τ → Segment → JwtValidator τ → Prop)
    (kid : τ → Option String)
    (c : Config τ Segment Segment.Answer AuthError (JwtValidator τ) Nat) : Prop where
  /-- Two forced refreshes begin at least one cooldown apart. -/
  apart : c.db.forced.Pairwise fun newer older =>
    settings.jwksRefreshCooldownSeconds ≤ newer.startedAt - older.startedAt
  /-- A token that misses its key and may not refresh finds a forced refresh that was under way
      during the cooldown before; so it was under way after any use of the key that is one
      cooldown ago. It is resolved with what is in the cache now. -/
  covered : ∀ t stage k cached v, c.run t = some (.call (.tryRefresh stage) k) →
    allowed t (.tryRefresh stage) c.db →
    (Segment.tryRefresh stage).exec settings t c.db = some (.ok (.declined cached), v) →
    cached = c.db.cachedValue ∧
      ∃ f ∈ c.db.forced, f.During settings.jwksRefreshCooldownSeconds c.db.monotonic ∧
        ∀ use, use + settings.jwksRefreshCooldownSeconds ≤ c.db.monotonic →
          ∀ e, f.endedAt = some e → use < e
  /-- A token that may go on with the lock forces a refresh. -/
  forces : ∀ t k v, c.run t = some (.call (.tryRefresh .withLock) k) →
    (Segment.tryRefresh .withLock).exec settings t c.db = some (.ok .proceeds, v) →
    v.forced = ⟨c.db.monotonic, none⟩ :: c.db.forced
  /-- The token that forced a refresh gets the key that the refresh brings. -/
  picksUp : ∀ t k jwks key v, c.run t = some (.call .finishRefresh k) →
    Segment.finishRefresh.exec settings t c.db = some (.ok (some jwks), v) →
    resolveSigningKeyFromJwks jwks (kid t) = .ok (some key) → k (.ok (some jwks)) = .done (.ok key)

theorem declined_cached {stage : Stage} {cached : Option Jwks}
    (executed : (Segment.tryRefresh stage).exec settings t v = some (.ok (.declined cached), v')) :
    cached = v.cachedValue := by
  cases stage with
  | beforeLock =>
      by_cases cooling : v.cooling settings = true
      · simp only [Segment.exec, cooling, if_true, Option.some.injEq, Prod.mk.injEq,
          Except.ok.injEq, Attempt.declined.injEq] at executed
        exact executed.1.symm
      · simp [Segment.exec, cooling] at executed
  | withLock =>
      obtain ⟨⟨attempt, after⟩, tried, is⟩ := Option.map_eq_some_iff.mp executed
      cases is
      unfold JwtValidator.tryWithLock at tried
      split at tried
      · split at tried <;> cases tried
        rfl
      · split at tried <;> cases tried
        rfl

theorem proceeds_forced (executed : (Segment.tryRefresh .withLock).exec settings t v =
    some (.ok .proceeds, v')) : v' = v.force t := by
  obtain ⟨⟨attempt, after⟩, tried, is⟩ := Option.map_eq_some_iff.mp executed
  cases is
  unfold JwtValidator.tryWithLock at tried
  split at tried <;> split at tried <;> cases tried
  rfl

end Machine

/-! The provider has a new key, and a token uses it. -/

def exampleSettings : AuthSettings := ⟨300, 30⟩

def exampleConfig (monotonic : Int) :
    Config Unit Segment Segment.Answer AuthError (JwtValidator Unit) Nat :=
  ⟨⟨monotonic, 0, .ok [⟨some "old", some 1⟩, ⟨some "new", some 2⟩],
    some ⟨[⟨some "old", some 1⟩], 300⟩, none, 0, fun _ => false, []⟩,
    fun _ => some (resolveSigningKey (some "new"))⟩

def checkPastCooldown (_ : Unit) (s : Segment) (v : JwtValidator Unit) : Bool :=
  match s with
  | .tryRefresh _ => !v.forced.isEmpty || exampleSettings.jwksRefreshCooldownSeconds ≤ v.monotonic
  | _ => true

theorem past_of_check (t : Unit) (s : Segment) (v : JwtValidator Unit)
    (h : checkPastCooldown t s v = true) : PastCooldown exampleSettings t s v := by
  rintro stage rfl never
  simpa [checkPastCooldown, never] using h

end SaasTemplate.Auth
