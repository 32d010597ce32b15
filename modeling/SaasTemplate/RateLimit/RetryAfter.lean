import SaasTemplate.RateLimit.GroupedRuns

/-! # What a refused caller is told to wait

The time to live of the bucket that refused a call, rounded up to seconds. The script gives an
expiry to a key without one and returns the time of every other key as it is; the caller
around it takes a time below one millisecond for a missing one.
-/

namespace SaasTemplate.RateLimit

open Redis

/-- `_handle_grouped_redis_result`: the check that is blocked and its `Retry-After` header. -/
def handleGroupedRedisResult (result : GroupedConsumeResult) : Except (Nat × String) Unit :=
  if result.allowed then .ok ()
  else
    let retryAfterSeconds := result.retryAfterSeconds.getD 0
    .error (result.blockedIndex.getD 0,
      toString (if retryAfterSeconds = 0 then 1 else retryAfterSeconds))

variable {buckets : List GroupedBucketSpec} {bucket : GroupedBucketSpec} {r after : Redis String}
  {retry ttl ms : Int} {key : String}

/-- `retry` is the time to live of the bucket in seconds, rounded up, and at least one. -/
structure ExactWait (bucket : GroupedBucketSpec) (after : Redis String) (retry : Int) : Prop where
  positive : 1 ≤ retry
  enough : after.pttl bucket.key ≤ retry * 1000
  tight : retry * 1000 < after.pttl bucket.key + 1000 ∨ retry = 1
  /-- Whoever waits as told finds nothing left of the window. -/
  elapsed : (after.wait (retry.toNat * 1000)).pttl bucket.key ≤ 0

/-- The refusal names the first bucket that is full and how long exactly it stays so. -/
def RetryAfterExact (buckets : List GroupedBucketSpec) (r : Redis String) : Prop :=
  ∃ index bucket retry, buckets[index]? = some bucket ∧ bucket.limit ≤ r.count bucket.key ∧
    (∀ i b, i < index → buckets[i]? = some b → r.count b.key < b.limit) ∧
    (atomicConsumeGroupedBuckets buckets r).1 = ⟨false, some index, some retry⟩ ∧
    handleGroupedRedisResult (atomicConsumeGroupedBuckets buckets r).1 =
      .error (index, toString retry) ∧
    ExactWait bucket (atomicConsumeGroupedBuckets buckets r).2 retry

/-- The first bucket that is full is in the last millisecond of its life, and its window is
    longer than a second. -/
def BlockedAtExpiry (buckets : List GroupedBucketSpec) (r : Redis String) : Prop :=
  ∃ bucket, firstFull buckets r = some bucket ∧ r.pttl bucket.key = 0 ∧ bucket.expirySeconds ≠ 1

/-! ## Time to live -/

theorem retryAfter_positive (ttl : Int) : 1 ≤ retryAfter ttl := Int.le_max_left _ _

theorem le_retryAfter (ttl : Int) : ttl ≤ retryAfter ttl * 1000 := by
  unfold retryAfter
  omega

theorem retryAfter_lt (present : 1 ≤ ttl) : retryAfter ttl * 1000 < ttl + 1000 := by
  unfold retryAfter
  omega

theorem retryAfter_seconds {seconds : Int} (positive : 0 < seconds) :
    retryAfter (seconds * 1000) = seconds := by
  unfold retryAfter
  omega

/-- A key loses what is waited. -/
theorem pttl_wait (wait : Nat) (enough : r.pttl key ≤ wait) : (r.wait wait).pttl key ≤ 0 := by
  cases found : (r.wait wait).find key with
  | none => simp [pttl, found]
  | some e =>
      have before := find_wait_some found
      rw [pttl_of_find found]
      rw [pttl_of_find before] at enough
      cases expires : e.expireAt with
      | none => simp [Entry.ttl, expires]
      | some t =>
          simp only [Entry.ttl, expires, Redis.wait] at enough ⊢
          omega

/-- A caller that is told the rounded time waits for exactly that key. -/
theorem exactWait_of_present (present : 1 ≤ after.pttl bucket.key) :
    ExactWait bucket after (retryAfter (after.pttl bucket.key)) where
  positive := retryAfter_positive _
  enough := le_retryAfter _
  tight := .inl (retryAfter_lt present)
  elapsed := by
    have positive := retryAfter_positive (after.pttl bucket.key)
    have enough := le_retryAfter (after.pttl bucket.key)
    exact pttl_wait _ (by omega)

/-- At the end of its life a key asks for one second. -/
theorem exactWait_at_expiry_iff (expiring : after.pttl bucket.key = 0) (positive : 1 ≤ retry) :
    ExactWait bucket after retry ↔ retry = 1 := by
  constructor
  · intro exact_
    rcases exact_.tight with tight | one
    · rw [expiring] at tight
      omega
    · exact one
  · rintro rfl
    exact ⟨Int.le_refl _, by omega, .inr rfl, pttl_wait _ (by omega)⟩

/-! ## Refusals -/

theorem before_firstFull {i : Nat} {b : GroupedBucketSpec} (earlier : i < firstFullIndex buckets r)
    (there : buckets[i]? = some b) : r.count b.key < b.limit := by
  have free := List.not_of_lt_findIdx earlier
  obtain ⟨bound, is⟩ := List.getElem?_eq_some_iff.mp there
  rw [is] at free
  simpa using free

theorem pttl_pexpire {e : Entry} (positive : 0 < ms) (found : r.find key = some e) :
    (r.pexpire key ms).pttl key = ms := by
  rw [pttl_of_find (find_pexpire_same positive found), now_pexpire]
  change r.now + ms - r.now = ms
  omega

/-- What a refused call tells about the first full bucket. -/
theorem refusal_iff (there : buckets[firstFullIndex buckets r]? = some bucket)
    (full : firstFull buckets r = some bucket)
    (script : atomicConsumeGroupedBuckets buckets r =
      (⟨false, some (firstFullIndex buckets r), some retry⟩, after)) (positive : 1 ≤ retry) :
    RetryAfterExact buckets r ↔ ExactWait bucket after retry := by
  have reached : bucket.limit ≤ r.count bucket.key := by simpa using List.find?_some full
  have answered : handleGroupedRedisResult (atomicConsumeGroupedBuckets buckets r).1 =
      .error (firstFullIndex buckets r, toString retry) := by
    have proper : retry ≠ 0 := by omega
    simp [script, handleGroupedRedisResult, proper]
  constructor
  · rintro ⟨index, other, seconds, at_, -, -, is, -, exact_⟩
    rw [script] at is exact_
    simp only [GroupedConsumeResult.mk.injEq, Option.some.injEq, true_and] at is
    obtain ⟨rfl, rfl⟩ := is
    cases there.symm.trans at_
    exact exact_
  · intro exact_
    exact ⟨_, bucket, retry, there, reached, fun i b earlier here => before_firstFull earlier here,
      by rw [script], answered, by rw [script]; exact exact_⟩

end SaasTemplate.RateLimit
