import SaasTemplate.RateLimit.GroupedFallback

/-! # Runs of the script

Calls for any groups of keys, with time passing between them. The server runs a script at one
point in time and with nobody in between.
-/

namespace SaasTemplate.RateLimit

open Redis

variable {buckets : List GroupedBucketSpec} {bucket : GroupedBucketSpec} {r : Redis String}
  {k : String}

/-- What one call of the script does to the counts. -/
structure Consumes (buckets : List GroupedBucketSpec) (r : Redis String) : Prop where
  allOrNone : ((atomicConsumeGroupedBuckets buckets r).1.allowed = true ∧
      (∀ bucket ∈ buckets, (atomicConsumeGroupedBuckets buckets r).2.count bucket.key =
        r.count bucket.key + 1) ∧
      ∀ k, k ∉ buckets.map (·.key) →
        (atomicConsumeGroupedBuckets buckets r).2.count k = r.count k) ∨
    ((atomicConsumeGroupedBuckets buckets r).1.allowed = false ∧
      ∀ k, (atomicConsumeGroupedBuckets buckets r).2.count k = r.count k)
  allowed : (atomicConsumeGroupedBuckets buckets r).1.allowed = true ↔
    ∀ bucket ∈ buckets, r.count bucket.key < bucket.limit
  /-- Every key that was incremented, or that blocked the call, has a time to live. -/
  expires : ∀ i bucket, buckets[i]? = some bucket →
    ((atomicConsumeGroupedBuckets buckets r).1.allowed = true ∨
      (atomicConsumeGroupedBuckets buckets r).1.blockedIndex = some i) →
    0 ≤ (atomicConsumeGroupedBuckets buckets r).2.pttl bucket.key

theorem firstFull_eq_none :
    firstFull buckets r = none ↔ ∀ bucket ∈ buckets, r.count bucket.key < bucket.limit := by
  simp [firstFull]

theorem pttl_incremented {e : Option Entry} {ms now : Int} (positive : 0 < ms)
    (alive : (e.getD ⟨0, none⟩).expireAt.all (now ≤ ·) = true) :
    0 ≤ Entry.ttl now (incremented scriptLacks ms now e) := by
  unfold incremented scriptLacks Entry.ttl
  cases expires : (e.getD ⟨0, none⟩).expireAt with
  | none => simp [expires]; omega
  | some t =>
      simp only [expires, Option.all_some, decide_eq_true_eq] at alive ⊢
      split_ifs
      · simp
        omega
      · simp
        omega

theorem find_renew {ms : Int} (positive : 0 < ms) {e : Entry} (found : r.find k = some e) :
    ∃ e', (renew scriptLacks k ms r).2.find k = some e' ∧ e'.count = e.count ∧
      0 ≤ (renew scriptLacks k ms r).2.pttl k := by
  by_cases lacks : scriptLacks (r.pttl k) = true
  · have after := find_pexpire_same positive found
    rw [renew_lacks lacks]
    refine ⟨_, after, rfl, ?_⟩
    rw [pttl_of_find after, now_pexpire]
    simp [Entry.ttl]
    omega
  · rw [renew_has (Bool.not_eq_true _ ▸ lacks)]
    refine ⟨e, found, rfl, ?_⟩
    simpa [scriptLacks] using lacks

theorem count_renew {ms : Int} (positive : 0 < ms) {e : Entry} (found : r.find k = some e)
    (j : String) : (renew scriptLacks k ms r).2.count j = r.count j := by
  by_cases same : j = k
  · subst same
    obtain ⟨e', after, count, -⟩ := find_renew positive found
    rw [count_of_find after, count_of_find found, count]
  · exact count_congr (renew_find_other same)

theorem consumes (grouped : Grouped buckets) : Consumes buckets r := by
  rcases atomicConsume_cases buckets r with ⟨free, script⟩ | ⟨bucket, there, full, script⟩
  · refine ⟨.inl ?_, ?_, ?_⟩
    · rw [script]
      refine ⟨rfl, fun bucket member => ?_, fun k absent => ?_⟩
      · rw [count_of_find (find_consumeBuckets grouped member), count_eq]
        unfold incremented
        dsimp only
        split_ifs <;> rfl
      · exact count_congr (find_consumeBuckets_other absent)
    · rw [script]
      exact iff_of_true rfl (firstFull_eq_none.mp free)
    · intro i bucket at_ _
      have member := List.mem_of_getElem? at_
      have positive := grouped.expiries bucket member
      rw [script, pttl_of_find (find_consumeBuckets grouped member), now_consumeBuckets]
      exact pttl_incremented (by omega) (live_getD bucket.key r)
  · have member := List.mem_of_getElem? there
    have limit := grouped.limits bucket member
    have expiry := grouped.expiries bucket member
    have positive : 0 < bucket.expirySeconds * 1000 := by omega
    have reached : bucket.limit ≤ r.count bucket.key := by
      simpa using List.find?_some full
    have counted : r.count bucket.key ≠ 0 := by omega
    obtain ⟨e, found, -⟩ := find_of_count counted
    refine ⟨.inr ?_, ?_, ?_⟩
    · rw [script]
      exact ⟨rfl, count_renew positive found⟩
    · rw [script]
      refine iff_of_false nofun fun free => ?_
      exact absurd (free bucket member) (by omega)
    · intro i other at_ blocked
      rw [script] at blocked ⊢
      obtain ⟨-, -, -, lives⟩ := find_renew positive found
      simp only [Bool.false_eq_true, Option.some.injEq, false_or] at blocked
      subst blocked
      cases there.symm.trans at_
      exact lives

/-! ## Runs -/

inductive Event where
  | call (buckets : List GroupedBucketSpec)
  | wait (ms : Nat)

def Event.step : Event → Redis String → Redis String
  | .call buckets, r => (atomicConsumeGroupedBuckets buckets r).2
  | .wait ms, r => r.wait ms

/-- The state after a run. -/
def run (events : List Event) (r : Redis String) : Redis String :=
  events.foldl (fun r event => event.step r) r

/-- Does this event admit a call that names `k`? -/
def Event.admits (k : String) : Event → Redis String → Bool
  | .call buckets, r => (atomicConsumeGroupedBuckets buckets r).1.allowed && (buckets.map (·.key)).contains k
  | .wait _, _ => false

/-- The number of admitted calls that name `k`. -/
def admitted (k : String) : List Event → Redis String → Nat
  | [], _ => 0
  | event :: rest, r => (event.admits k r).toNat + admitted k rest (event.step r)

/-- `k` does not expire in this part of a run. -/
def Lives (k : String) : List Event → Redis String → Prop
  | [], _ => True
  | event :: rest, r =>
      ((r.find k).isSome = true → ((event.step r).find k).isSome = true) ∧
        Lives k rest (event.step r)

/-- Every call is for distinct keys, each with its own limit. -/
def UsesLimits (limits : String → Int) (events : List Event) : Prop :=
  ∀ buckets, .call buckets ∈ events →
    Grouped buckets ∧ ∀ bucket ∈ buckets, bucket.limit = limits bucket.key

theorem count_wait {ms : Nat} (lives : (r.find k).isSome = true → ((r.wait ms).find k).isSome = true) :
    (r.wait ms).count k = r.count k := by
  cases found : r.find k with
  | none => exact count_congr ((find_wait_none found).trans found.symm)
  | some e =>
      obtain ⟨e', after⟩ := Option.isSome_iff_exists.mp (lives (by simp [found]))
      cases (find_wait_some after).symm.trans found
      exact count_congr (after.trans found.symm)

/-- What one event adds to the calls that `k` has admitted in its life. -/
theorem admits_count {limits : String → Int} {event : Event}
    (uses : UsesLimits limits [event])
    (lives : (r.find k).isSome = true → ((event.step r).find k).isSome = true) :
    (event.admits k r = true ∧ (event.step r).count k = r.count k + 1 ∧ r.count k < limits k) ∨
      (event.admits k r = false ∧ (event.step r).count k = r.count k) := by
  cases event with
  | wait ms => exact .inr ⟨rfl, count_wait lives⟩
  | call buckets =>
      obtain ⟨grouped, limit⟩ := uses buckets (by simp)
      have spec := consumes (r := r) grouped
      rcases spec.allOrNone with ⟨allowed, each, others⟩ | ⟨refused, same⟩
      · by_cases named : k ∈ buckets.map (·.key)
        · obtain ⟨bucket, member, rfl⟩ := List.mem_map.mp named
          refine .inl ⟨by simp [Event.admits, allowed, named], each bucket member, ?_⟩
          exact limit bucket member ▸ spec.allowed.mp allowed bucket member
        · exact .inr ⟨by simp [Event.admits, named], others k named⟩
      · exact .inr ⟨by simp [Event.admits, refused], same k⟩

/-- While `k` lives, its count goes up with every admitted call, and never past its limit. -/
theorem admitted_add_count {limits : String → Int} {events : List Event}
    (uses : UsesLimits limits events) (lives : Lives k events r) :
    admitted k events r + r.count k ≤ max (limits k) (r.count k) := by
  induction events generalizing r with
  | nil =>
      rw [admitted]
      omega
  | cons event rest ih =>
      have here : UsesLimits limits [event] := fun buckets member =>
        uses buckets (by rw [List.mem_singleton.mp member]; simp)
      have later := ih (fun buckets member => uses buckets (by simp [member])) lives.2
      rcases admits_count here lives.1 with ⟨admits, count, free⟩ | ⟨skips, count⟩
      · simp only [admitted, admits, Bool.toNat_true]
        omega
      · simp only [admitted, skips, Bool.toNat_false]
        omega

/-- Over every run: each call is all or nothing and leaves its keys with a time to live, and in
    no part of the run in which a key lives, from a count that is not negative (a key that is
    not there yet counts as zero), are there more admitted calls for it than its limit. -/
theorem grouped_rate_limit {limits : String → Int} {events : List Event}
    (positive : ∀ k, 0 < limits k) (uses : UsesLimits limits events) :
    (∀ before buckets after, events = before ++ .call buckets :: after →
      Consumes buckets (run before r)) ∧
    ∀ before life after k, events = before ++ life ++ after → 0 ≤ (run before r).count k →
      Lives k life (run before r) → (admitted k life (run before r) : Int) ≤ limits k := by
  refine ⟨?_, ?_⟩
  · rintro before buckets after rfl
    exact consumes (uses buckets (by simp)).1
  · rintro before life after k rfl started lives
    have bound := admitted_add_count (fun buckets member => uses buckets (by simp [member])) lives
    have limit := positive k
    omega

/-- Two calls for one address, the second one with a user as well. -/
def exampleEvents : List Event :=
  [.call [⟨"ip", 2, 60⟩], .wait 5, .call [⟨"ip", 2, 60⟩, ⟨"user", 2, 30⟩]]

theorem grouped_rate_limit_example :
    Consumes [⟨"ip", 2, 60⟩, ⟨"user", 2, 30⟩]
      (run [.call [⟨"ip", 2, 60⟩], .wait 5] ⟨0, fun _ => none⟩) ∧
    (admitted "ip" exampleEvents ⟨0, fun _ => none⟩ : Int) ≤ 2 := by
  have uses : UsesLimits (fun _ => 2) exampleEvents := by
    intro buckets member
    simp only [exampleEvents, List.mem_cons, Event.call.injEq, reduceCtorEq, List.not_mem_nil,
      or_false, false_or] at member
    rcases member with rfl | rfl <;> exact ⟨⟨by decide, by decide, by decide⟩, by decide⟩
  have spec := grouped_rate_limit (r := ⟨0, fun _ => none⟩) (fun _ => by decide) uses
  exact ⟨spec.1 [.call [⟨"ip", 2, 60⟩], .wait 5] _ [] rfl,
    spec.2 [] exampleEvents [] "ip" rfl (by decide) ⟨by decide, by decide, by decide, trivial⟩⟩

end SaasTemplate.RateLimit
