import Mathlib.Data.List.Nodup
import Mathlib.Tactic.SplitIfs
import SaasTemplate.RateLimit.Redis

/-! # Consuming a group of buckets

`GROUPED_FIXED_WINDOW_CONSUME_LUA` with the call around it, and the fallback for Redis Cluster
that issues the same commands one by one. Lua's numbers are doubles; the model uses integers,
which they represent exactly below 2^53.
-/

namespace SaasTemplate.RateLimit

open Redis

structure GroupedBucketSpec where
  key : String
  limit : Int
  expirySeconds : Int
  deriving DecidableEq, Repr

structure GroupedConsumeResult where
  allowed : Bool
  blockedIndex : Option Nat
  retryAfterSeconds : Option Int
  deriving DecidableEq, Repr

/-- What Lua and Python do to a key without a time to live, where `lacks` says which answers of
    `PTTL` they take for that. -/
def renew (lacks : Int → Bool) (key : String) (ms : Int) (r : Redis String) : Int × Redis String :=
  let ttl := r.pttl key
  if lacks ttl then (ms, r.pexpire key ms) else (ttl, r)

/-- `INCR`, and an expiry for a key that is new or lacks a time to live. -/
def increment (lacks : Int → Bool) (key : String) (ms : Int) (r : Redis String) : Redis String :=
  let (nextValue, r) := r.incr key
  let ttl := r.pttl key
  if nextValue = 1 ∨ lacks ttl = true then r.pexpire key ms else r

/-! ## The script -/

/-- `KEYS[i]`. -/
def keyAt (keys : List String) (i : Nat) : String := keys.getD (i - 1) ""

/-- `tonumber(ARGV[i])`. -/
def argAt (argv : List Int) (i : Nat) : Int := argv.getD (i - 1) 0

/-- `ttl_ms < 0`. -/
def scriptLacks (ttl : Int) : Bool := ttl < 0

/-- The first loop, with `left` rounds to go: the position and the time to live of a bucket
    that is full. -/
def scriptCheck (keys : List String) (argv : List Int) (n : Nat) :
    Nat → Redis String → Option (Nat × Int) × Redis String
  | 0, r => (none, r)
  | left + 1, r =>
      let i := n - left
      let limitValue := argAt argv (1 + i)
      let current := (r.get (keyAt keys i)).getD 0
      if limitValue ≤ current then
        let (ttl, r) := renew scriptLacks (keyAt keys i) (argAt argv (1 + n + i)) r
        (some (i, ttl), r)
      else scriptCheck keys argv n left r

/-- The second loop. -/
def scriptConsume (keys : List String) (argv : List Int) (n : Nat) :
    Nat → Redis String → Redis String
  | 0, r => r
  | left + 1, r =>
      let i := n - left
      scriptConsume keys argv n left
        (increment scriptLacks (keyAt keys i) (argAt argv (1 + n + i)) r)

/-- `GROUPED_FIXED_WINDOW_CONSUME_LUA`. -/
def groupedFixedWindowConsume (keys : List String) (argv : List Int) (r : Redis String) :
    (Int × Nat × Int) × Redis String :=
  let n := (argAt argv 1).toNat
  match scriptCheck keys argv n n r with
  | (some (i, ttl), r) => ((0, i, ttl), r)
  | (none, r) => ((1, 0, 0), scriptConsume keys argv n n r)

def retryAfter (ttl : Int) : Int := max 1 ((ttl + 999) / 1000)

def atomicConsumeGroupedBuckets (buckets : List GroupedBucketSpec) (r : Redis String) :
    GroupedConsumeResult × Redis String :=
  let keys := buckets.map (·.key)
  let argv : List Int :=
    (buckets.length : Int) :: (buckets.map (·.limit) ++ buckets.map (·.expirySeconds * 1000))
  let (raw, r) := groupedFixedWindowConsume keys argv r
  if raw.1 = 1 then (⟨true, none, none⟩, r)
  else
    let blockedPosition := raw.2.1
    let ttl := raw.2.2
    let ttl := if ttl < 1 then ((buckets[blockedPosition - 1]?).map (·.expirySeconds * 1000)).getD 0
      else ttl
    (⟨false, some (blockedPosition - 1), some (retryAfter ttl)⟩, r)

/-! ## The fallback -/

/-- `ttl_ms < 1`. -/
def fallbackLacks (ttl : Int) : Bool := ttl < 1

def fallbackCheck : Nat → List GroupedBucketSpec → Redis String →
    Option GroupedConsumeResult × Redis String
  | _, [], r => (none, r)
  | index, bucket :: rest, r =>
      let current := (r.get bucket.key).getD 0
      if bucket.limit ≤ current then
        let (ttl, r) := renew fallbackLacks bucket.key (bucket.expirySeconds * 1000) r
        (some ⟨false, some index, some (retryAfter ttl)⟩, r)
      else fallbackCheck (index + 1) rest r

def fallbackConsume (buckets : List GroupedBucketSpec) (r : Redis String) : Redis String :=
  buckets.foldl (fun r bucket =>
    increment fallbackLacks bucket.key (bucket.expirySeconds * 1000) r) r

def compatibilityConsumeGroupedBuckets (buckets : List GroupedBucketSpec) (r : Redis String) :
    GroupedConsumeResult × Redis String :=
  match fallbackCheck 0 buckets r with
  | (some result, r) => (result, r)
  | (none, r) => (⟨true, none, none⟩, fallbackConsume buckets r)

/-! ## The script, bucket by bucket -/

/-- The two loops on the buckets themselves; the position and the time to live of a full one. -/
def checkBuckets (lacks : Int → Bool) : Nat → List GroupedBucketSpec → Redis String →
    Option (Nat × Int) × Redis String
  | _, [], r => (none, r)
  | i, bucket :: rest, r =>
      if bucket.limit ≤ r.count bucket.key then
        let (ttl, r) := renew lacks bucket.key (bucket.expirySeconds * 1000) r
        (some (i, ttl), r)
      else checkBuckets lacks (i + 1) rest r

def consumeBuckets (lacks : Int → Bool) (buckets : List GroupedBucketSpec) (r : Redis String) :
    Redis String :=
  buckets.foldl (fun r bucket => increment lacks bucket.key (bucket.expirySeconds * 1000) r) r

section Positions

variable (done rest : List GroupedBucketSpec) (bucket : GroupedBucketSpec)

/-- The arguments of the call, with a bucket in the middle. -/
def argvOf (buckets : List GroupedBucketSpec) : List Int :=
  (buckets.length : Int) :: (buckets.map (·.limit) ++ buckets.map (·.expirySeconds * 1000))

theorem keyAt_middle :
    keyAt ((done ++ bucket :: rest).map (·.key)) (done.length + 1) = bucket.key := by
  simp [keyAt, List.getD_eq_getElem?_getD]

theorem argAt_limit :
    argAt (argvOf (done ++ bucket :: rest)) (1 + (done.length + 1)) = bucket.limit := by
  simp [argAt, argvOf, List.getD_eq_getElem?_getD]

theorem argAt_expiry :
    argAt (argvOf (done ++ bucket :: rest))
      (1 + (done ++ bucket :: rest).length + (done.length + 1)) = bucket.expirySeconds * 1000 := by
  have position : 1 + (done ++ bucket :: rest).length + (done.length + 1) - 1 =
      (((done ++ bucket :: rest).map (·.limit)).length + done.length) + 1 := by
    rw [List.length_map]
    omega
  rw [argAt, position, argvOf, List.getD_cons_succ, List.getD_eq_getElem?_getD,
    List.getElem?_append_right (Nat.le_add_right _ _), Nat.add_sub_cancel_left]
  simp

/-- `n - left`, when `left` rounds are left after this one. -/
theorem position_eq : (done ++ bucket :: rest).length - rest.length = done.length + 1 := by
  rw [List.length_append, List.length_cons]
  omega

theorem scriptCheck_eq (r : Redis String) :
    scriptCheck ((done ++ rest).map (·.key)) (argvOf (done ++ rest)) (done ++ rest).length
      rest.length r = checkBuckets scriptLacks (done.length + 1) rest r := by
  induction rest generalizing done with
  | nil => rfl
  | cons bucket rest ih =>
      rw [List.length_cons, scriptCheck]
      simp only [position_eq, keyAt_middle, argAt_limit, argAt_expiry]
      have later := ih (done ++ [bucket])
      have position : (done ++ [bucket]).length = done.length + 1 := by simp
      rw [List.append_assoc, List.singleton_append, position] at later
      rw [later]
      rfl

theorem scriptConsume_eq (r : Redis String) :
    scriptConsume ((done ++ rest).map (·.key)) (argvOf (done ++ rest)) (done ++ rest).length
      rest.length r = consumeBuckets scriptLacks rest r := by
  induction rest generalizing done r with
  | nil => rfl
  | cons bucket rest ih =>
      rw [List.length_cons, scriptConsume]
      simp only [position_eq, keyAt_middle, argAt_expiry]
      have later := ih (done ++ [bucket])
      rw [List.append_assoc, List.singleton_append] at later
      rw [later]
      rfl

end Positions

theorem groupedFixedWindowConsume_eq (buckets : List GroupedBucketSpec) (r : Redis String) :
    groupedFixedWindowConsume (buckets.map (·.key)) (argvOf buckets) r =
      match checkBuckets scriptLacks 1 buckets r with
      | (some (i, ttl), r) => ((0, i, ttl), r)
      | (none, r) => ((1, 0, 0), consumeBuckets scriptLacks buckets r) := by
  have checked := scriptCheck_eq [] buckets r
  have consumed := scriptConsume_eq [] buckets
  rw [List.nil_append, List.length_nil, Nat.zero_add] at checked
  simp only [List.nil_append] at consumed
  have n : (argAt (argvOf buckets) 1).toNat = buckets.length := rfl
  rw [groupedFixedWindowConsume, n, checked]
  simp only [consumed]

/-! ## What a group finds -/

/-- The first bucket that is full. -/
def firstFull (buckets : List GroupedBucketSpec) (r : Redis String) : Option GroupedBucketSpec :=
  buckets.find? fun bucket => bucket.limit ≤ r.count bucket.key

def firstFullIndex (buckets : List GroupedBucketSpec) (r : Redis String) : Nat :=
  buckets.findIdx fun bucket => bucket.limit ≤ r.count bucket.key

/-- A check stops at the first full bucket, and leaves the keys alone if there is none. -/
theorem checkBuckets_cases (lacks : Int → Bool) (i : Nat) (buckets : List GroupedBucketSpec)
    (r : Redis String) :
    (firstFull buckets r = none ∧ checkBuckets lacks i buckets r = (none, r)) ∨
    ∃ done bucket rest, buckets = done ++ bucket :: rest ∧ firstFull buckets r = some bucket ∧
      done.length = firstFullIndex buckets r ∧ checkBuckets lacks i buckets r =
        (some (i + firstFullIndex buckets r,
          (renew lacks bucket.key (bucket.expirySeconds * 1000) r).1),
          (renew lacks bucket.key (bucket.expirySeconds * 1000) r).2) := by
  induction buckets generalizing i with
  | nil => exact .inl ⟨rfl, rfl⟩
  | cons bucket rest ih =>
      by_cases full : bucket.limit ≤ r.count bucket.key
      · refine .inr ⟨[], bucket, rest, rfl, by simp [firstFull, full], ?_, ?_⟩
        · simp [firstFullIndex, List.findIdx_cons, full]
        · simp [checkBuckets, firstFullIndex, List.findIdx_cons, full]
      · have skip : firstFull (bucket :: rest) r = firstFull rest r := by
          simp [firstFull, full]
        have index : firstFullIndex (bucket :: rest) r = firstFullIndex rest r + 1 := by
          simp [firstFullIndex, List.findIdx_cons, full]
        have next : checkBuckets lacks i (bucket :: rest) r = checkBuckets lacks (i + 1) rest r := by
          simp [checkBuckets, full]
        rcases ih (i + 1) with ⟨none, same⟩ | ⟨done, found, later, rfl, is, position, same⟩
        · exact .inl ⟨skip.trans none, next.trans same⟩
        · refine .inr ⟨bucket :: done, found, later, rfl, skip.trans is, ?_, next.trans ?_⟩
          · rw [index, List.length_cons, position]
          · rw [same, index, Nat.add_assoc, Nat.add_comm 1]

theorem fallbackCheck_eq (index : Nat) (buckets : List GroupedBucketSpec) (r : Redis String) :
    fallbackCheck index buckets r =
      ((checkBuckets fallbackLacks index buckets r).1.map fun full =>
        ⟨false, some full.1, some (retryAfter full.2)⟩,
        (checkBuckets fallbackLacks index buckets r).2) := by
  induction buckets generalizing index with
  | nil => rfl
  | cons bucket rest ih =>
      rw [fallbackCheck, checkBuckets]
      by_cases full : bucket.limit ≤ r.count bucket.key
      · simp only [show (r.get bucket.key).getD 0 = r.count bucket.key from rfl, full, if_true,
          Option.map_some]
      · simp only [show (r.get bucket.key).getD 0 = r.count bucket.key from rfl, full, if_false, ih]

section Group

variable {lacks : Int → Bool} {bucket : GroupedBucketSpec} {buckets : List GroupedBucketSpec}
  {r : Redis String} {k : String} {ms : Int}

/-- The buckets of a call: their keys differ, and limits and expiries are positive. -/
structure Grouped (buckets : List GroupedBucketSpec) : Prop where
  distinct : (buckets.map (·.key)).Nodup
  limits : ∀ bucket ∈ buckets, 0 < bucket.limit
  expiries : ∀ bucket ∈ buckets, 0 < bucket.expirySeconds

/-- The entry that an increment leaves. -/
def incremented (lacks : Int → Bool) (ms now : Int) (e : Option Entry) : Entry :=
  let e : Entry := e.getD ⟨0, none⟩
  if e.count + 1 = 1 ∨ lacks (Entry.ttl now e) = true then ⟨e.count + 1, some (now + ms)⟩
  else ⟨e.count + 1, e.expireAt⟩

theorem now_increment (lacks : Int → Bool) (key : String) (ms : Int) (r : Redis String) :
    (increment lacks key ms r).now = r.now := by
  unfold increment
  dsimp only
  split_ifs
  · simp
  · rfl

theorem find_increment_same (positive : 0 < ms) :
    (increment lacks k ms r).find k = some (incremented lacks ms r.now (r.find k)) := by
  have after := find_incr_same k r
  have ttl : (r.incr k).2.pttl k = Entry.ttl r.now ((r.find k).getD ⟨0, none⟩) := by
    rw [pttl, after]
    rfl
  have value := value_incr k r
  have count := count_eq k r
  unfold increment incremented
  simp only [ttl, value, count]
  split_ifs
  · rw [find_pexpire_same positive after, now_incr, count]
  · rw [after, count]

theorem find_increment_other {j : String} (h : j ≠ k) :
    (increment lacks k ms r).find j = r.find j := by
  unfold increment
  dsimp only
  split_ifs
  · rw [find_pexpire_other h, find_incr_other h]
  · exact find_incr_other h

theorem now_consumeBuckets (lacks : Int → Bool) (buckets : List GroupedBucketSpec)
    (r : Redis String) : (consumeBuckets lacks buckets r).now = r.now := by
  induction buckets generalizing r with
  | nil => rfl
  | cons bucket rest ih => exact (ih _).trans (now_increment ..)

theorem find_consumeBuckets_other (absent : k ∉ buckets.map (·.key)) :
    (consumeBuckets lacks buckets r).find k = r.find k := by
  induction buckets generalizing r with
  | nil => rfl
  | cons bucket rest ih =>
      rw [List.map_cons, List.mem_cons, not_or] at absent
      exact (ih absent.2).trans (find_increment_other absent.1)

theorem find_consumeBuckets (grouped : Grouped buckets) (member : bucket ∈ buckets) :
    (consumeBuckets lacks buckets r).find bucket.key =
      some (incremented lacks (bucket.expirySeconds * 1000) r.now (r.find bucket.key)) := by
  obtain ⟨distinct, -, expiries⟩ := grouped
  induction buckets generalizing r with
  | nil => cases member
  | cons first rest ih =>
      rw [List.map_cons, List.nodup_cons] at distinct
      rcases List.mem_cons.mp member with rfl | later
      · have positive := expiries bucket (by simp)
        refine (find_consumeBuckets_other distinct.1).trans (find_increment_same ?_)
        omega
      · have apart : bucket.key ≠ first.key := fun same =>
          distinct.1 (same ▸ List.mem_map_of_mem later)
        have after := ih later distinct.2 (fun b among => expiries b (by simp [among]))
          (r := increment lacks first.key (first.expirySeconds * 1000) r)
        rw [now_increment, find_increment_other apart] at after
        exact after

end Group

/-! ## The two calls -/

theorem renew_find_other {lacks : Int → Bool} {key k : String} {ms : Int} {r : Redis String}
    (h : k ≠ key) : (renew lacks key ms r).2.find k = r.find k := by
  unfold renew
  dsimp only
  split_ifs
  · exact find_pexpire_other h
  · rfl

theorem renew_lacks {lacks : Int → Bool} {key : String} {ms : Int} {r : Redis String}
    (h : lacks (r.pttl key) = true) : renew lacks key ms r = (ms, r.pexpire key ms) := by
  simp [renew, h]

theorem renew_has {lacks : Int → Bool} {key : String} {ms : Int} {r : Redis String}
    (h : lacks (r.pttl key) = false) : renew lacks key ms r = (r.pttl key, r) := by
  simp [renew, h]

/-- How the call of the script ends. -/
theorem atomicConsume_cases (buckets : List GroupedBucketSpec) (r : Redis String) :
    (firstFull buckets r = none ∧
      atomicConsumeGroupedBuckets buckets r =
        (⟨true, none, none⟩, consumeBuckets scriptLacks buckets r)) ∨
    ∃ bucket, buckets[firstFullIndex buckets r]? = some bucket ∧
      firstFull buckets r = some bucket ∧
      let out := renew scriptLacks bucket.key (bucket.expirySeconds * 1000) r
      atomicConsumeGroupedBuckets buckets r =
        (⟨false, some (firstFullIndex buckets r), some (retryAfter
          (if out.1 < 1 then bucket.expirySeconds * 1000 else out.1))⟩, out.2) := by
  have script := groupedFixedWindowConsume_eq buckets r
  rcases checkBuckets_cases scriptLacks 1 buckets r with ⟨none, checked⟩ |
    ⟨done, bucket, rest, is, full, position, checked⟩
  · refine .inl ⟨none, ?_⟩
    rw [checked] at script
    unfold atomicConsumeGroupedBuckets
    simp only [show _ :: (_ ++ _) = argvOf buckets from rfl, script, if_true]
  · have there : buckets[firstFullIndex buckets r]? = some bucket := by
      rw [← position, is]
      simp
    refine .inr ⟨bucket, there, full, ?_⟩
    rw [checked] at script
    unfold atomicConsumeGroupedBuckets
    simp only [show (buckets.length : Int) :: (_ ++ _) = argvOf buckets from rfl, script,
      Nat.add_sub_cancel_left, there]
    simp

/-- How the fallback ends. -/
theorem compatibilityConsume_cases (buckets : List GroupedBucketSpec) (r : Redis String) :
    (firstFull buckets r = none ∧
      compatibilityConsumeGroupedBuckets buckets r =
        (⟨true, none, none⟩, consumeBuckets fallbackLacks buckets r)) ∨
    ∃ bucket ∈ buckets, firstFull buckets r = some bucket ∧
      let out := renew fallbackLacks bucket.key (bucket.expirySeconds * 1000) r
      compatibilityConsumeGroupedBuckets buckets r =
        (⟨false, some (firstFullIndex buckets r), some (retryAfter out.1)⟩, out.2) := by
  unfold compatibilityConsumeGroupedBuckets
  rw [fallbackCheck_eq]
  rcases checkBuckets_cases fallbackLacks 0 buckets r with ⟨none, checked⟩ |
    ⟨done, bucket, rest, is, full, -, checked⟩
  · exact .inl ⟨none, by rw [checked]; rfl⟩
  · exact .inr ⟨bucket, is ▸ by simp, full, by rw [checked]; simp⟩

end SaasTemplate.RateLimit
