import SaasTemplate.RateLimit.GroupedAtomic

/-! # The cluster fallback against the script

Run on the same keys with nobody in between, the two paths agree but for a key that expires in
this very millisecond: the fallback takes a time to live of zero for none, the script does not.
-/

namespace SaasTemplate.RateLimit

open Redis

variable {buckets : List GroupedBucketSpec} {bucket : GroupedBucketSpec} {r : Redis String}
  {k : String} {e : Entry} {ms : Int}

/-- The fallback gives the same result as the script, and leaves the same counts and expiry
    times. -/
structure Agrees (buckets : List GroupedBucketSpec) (r : Redis String) : Prop where
  result : (compatibilityConsumeGroupedBuckets buckets r).1 = (atomicConsumeGroupedBuckets buckets r).1
  entries : ∀ k, (compatibilityConsumeGroupedBuckets buckets r).2.find k =
    (atomicConsumeGroupedBuckets buckets r).2.find k

/-- Neither the key that blocks the group, nor one that is incremented and not new, is in the
    last millisecond of its life. -/
def OutlivesCall (buckets : List GroupedBucketSpec) (r : Redis String) : Prop :=
  match firstFull buckets r with
  | some bucket => r.pttl bucket.key ≠ 0
  | none => ∀ bucket ∈ buckets, r.count bucket.key ≠ 0 → r.pttl bucket.key ≠ 0

theorem pttl_of_find (h : r.find k = some e) : r.pttl k = Entry.ttl r.now e := by
  rw [pttl, h]

theorem ttl_of_find (h : r.find k = some e) :
    (e.expireAt = none ∧ r.pttl k = -1) ∨
      ∃ t, e.expireAt = some t ∧ r.pttl k = t - r.now ∧ r.now ≤ t := by
  rw [pttl_of_find h]
  cases expires : e.expireAt with
  | none => exact .inl ⟨rfl, by simp [Entry.ttl, expires]⟩
  | some t =>
      have alive := live_of_find h
      simp only [expires, Option.all_some, decide_eq_true_eq] at alive
      exact .inr ⟨t, rfl, by simp [Entry.ttl, expires], alive⟩

theorem find_of_count (h : r.count k ≠ 0) : ∃ e, r.find k = some e ∧ e.count = r.count k := by
  cases found : r.find k with
  | none => simp [count_eq, found] at h
  | some e => exact ⟨e, rfl, (count_of_find found).symm⟩

theorem lacks_eq {ttl : Int} (h : ttl ≠ 0) : fallbackLacks ttl = scriptLacks ttl := by
  unfold fallbackLacks scriptLacks
  rw [decide_eq_decide]
  omega

/-! ## A full bucket -/

/-- The time that both paths report. -/
theorem ttl_renew :
    (renew fallbackLacks k ms r).1 =
      if (renew scriptLacks k ms r).1 < 1 then ms else (renew scriptLacks k ms r).1 := by
  unfold renew fallbackLacks scriptLacks
  dsimp only
  split_ifs <;> simp_all <;> omega

theorem renew_agrees_iff (positive : 0 < ms) (found : r.find k = some e) :
    (∀ j, (renew fallbackLacks k ms r).2.find j = (renew scriptLacks k ms r).2.find j) ↔
      r.pttl k ≠ 0 := by
  constructor
  · intro same zero
    have fallback : (renew fallbackLacks k ms r).2 = r.pexpire k ms := by
      rw [renew_lacks (by simp [zero, fallbackLacks])]
    have script : (renew scriptLacks k ms r).2 = r := by
      rw [renew_has (by simp [zero, scriptLacks])]
    have here := same k
    rw [fallback, script, find_pexpire_same positive found, found, Option.some.injEq] at here
    rcases ttl_of_find found with ⟨-, none⟩ | ⟨t, expires, left, -⟩
    · omega
    · have later : some (r.now + ms) = some t := (congrArg Entry.expireAt here).trans expires
      rw [Option.some.injEq] at later
      omega
  · intro lives j
    simp only [renew, lacks_eq lives]

/-! ## A free group -/

theorem incremented_agrees_iff (positive : 0 < ms) :
    incremented fallbackLacks ms r.now (r.find k) = incremented scriptLacks ms r.now (r.find k) ↔
      (r.count k ≠ 0 → r.pttl k ≠ 0) := by
  by_cases new : r.count k = 0
  · simp [incremented, ← count_eq, new]
  · obtain ⟨e, found, counts⟩ := find_of_count new
    simp only [ne_eq, new, not_false_eq_true, forall_const]
    rw [pttl_of_find found, found]
    have old : ¬(e.count + 1 = 1) := by omega
    simp only [incremented, Option.getD_some, old, false_or]
    constructor
    · intro same zero
      have expires : e.expireAt = some r.now := by
        rcases ttl_of_find found with ⟨-, none⟩ | ⟨t, expires, left, -⟩
        · rw [pttl_of_find found] at none
          omega
        · rw [pttl_of_find found] at left
          rw [expires, Option.some.injEq]
          omega
      simp only [zero, fallbackLacks, scriptLacks, expires] at same
      simp at same
      omega
    · intro lives
      rw [lacks_eq lives]

theorem consume_agrees_iff (grouped : Grouped buckets) :
    (∀ k, (consumeBuckets fallbackLacks buckets r).find k =
      (consumeBuckets scriptLacks buckets r).find k) ↔
      ∀ bucket ∈ buckets, r.count bucket.key ≠ 0 → r.pttl bucket.key ≠ 0 := by
  have each : ∀ bucket ∈ buckets, 0 < bucket.expirySeconds * 1000 := fun bucket member => by
    have positive := grouped.expiries bucket member
    omega
  constructor
  · intro same bucket member
    have here := same bucket.key
    rw [find_consumeBuckets grouped member, find_consumeBuckets grouped member,
      Option.some.injEq] at here
    exact (incremented_agrees_iff (each bucket member)).mp here
  · intro lives k
    by_cases named : k ∈ buckets.map (·.key)
    · obtain ⟨bucket, member, rfl⟩ := List.mem_map.mp named
      rw [find_consumeBuckets grouped member, find_consumeBuckets grouped member,
        (incremented_agrees_iff (each bucket member)).mpr (lives bucket member)]
    · rw [find_consumeBuckets_other named, find_consumeBuckets_other named]

/-- The fallback agrees with the script exactly when no key it works on is in the last
    millisecond of its life. -/
theorem fallback_agrees_iff (grouped : Grouped buckets) :
    Agrees buckets r ↔ OutlivesCall buckets r := by
  rcases atomicConsume_cases buckets r with ⟨free, script⟩ | ⟨bucket, there, full, script⟩
  · rcases compatibilityConsume_cases buckets r with ⟨-, fallback⟩ | ⟨_, -, full, -⟩
    · have outlives : OutlivesCall buckets r ↔
          ∀ bucket ∈ buckets, r.count bucket.key ≠ 0 → r.pttl bucket.key ≠ 0 := by
        rw [OutlivesCall, free]
      rw [outlives, ← consume_agrees_iff grouped]
      constructor
      · intro agrees k
        simpa only [script, fallback] using agrees.entries k
      · intro same
        exact ⟨by rw [script, fallback], fun k => by rw [script, fallback]; exact same k⟩
    · cases free.symm.trans full
  · rcases compatibilityConsume_cases buckets r with ⟨free, -⟩ | ⟨bucket', -, full', fallback⟩
    · cases free.symm.trans full
    · cases full.symm.trans full'
      have member := List.mem_of_getElem? there
      have limit := grouped.limits bucket member
      have expiry := grouped.expiries bucket member
      have reached : bucket.limit ≤ r.count bucket.key := by
        simpa using List.find?_some full
      have counted : r.count bucket.key ≠ 0 := by omega
      have positive : 0 < bucket.expirySeconds * 1000 := by omega
      obtain ⟨e, found, -⟩ := find_of_count counted
      have outlives : OutlivesCall buckets r ↔ r.pttl bucket.key ≠ 0 := by
        rw [OutlivesCall, full]
      rw [outlives, ← renew_agrees_iff positive found]
      constructor
      · intro agrees k
        simpa only [script, fallback] using agrees.entries k
      · intro same
        exact ⟨by rw [script, fallback, ttl_renew], fun k => by rw [script, fallback]; exact same k⟩

def exampleBuckets : List GroupedBucketSpec := [⟨"ip", 5, 60⟩, ⟨"user", 2, 60⟩]

/-- The key of the first bucket has a count and ten milliseconds left. -/
def exampleRedis (count : Int) : Redis String :=
  ⟨0, fun k => if k = "ip" then some ⟨count, some 10⟩ else none⟩

/-- Two free buckets, one of them new. -/
theorem fallback_agrees_example : Agrees exampleBuckets (exampleRedis 3) := by
  have free : firstFull exampleBuckets (exampleRedis 3) = none := by decide
  have outlives : OutlivesCall exampleBuckets (exampleRedis 3) := by
    rw [OutlivesCall, free]
    decide
  exact (fallback_agrees_iff ⟨by decide, by decide, by decide⟩).mpr outlives

/-- A full bucket whose key expires now: the script leaves its expiry, the fallback renews it. -/
theorem fallback_renews_expiring_key :
    ¬∀ (buckets : List GroupedBucketSpec) (r : Redis String), Grouped buckets → Agrees buckets r := by
  intro claim
  have agrees := claim [⟨"ip", 5, 60⟩] ⟨0, fun k => if k = "ip" then some ⟨5, some 0⟩ else none⟩
    ⟨by decide, by decide, by decide⟩
  have same := agrees.entries "ip"
  revert same
  decide

end SaasTemplate.RateLimit
