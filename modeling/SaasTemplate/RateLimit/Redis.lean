import Mathlib.Logic.Function.Basic
import Mathlib.Data.Option.Basic

/-! # Counters that expire

The keys of a Redis server as far as counters need them: `GET`, `PTTL`, `INCR` and `PEXPIRE`,
with the time in milliseconds. A key is there up to and including its expiry time, so the time
to live of a key that exists may be zero.
-/

set_option linter.unusedSectionVars false

namespace SaasTemplate.RateLimit

/-- A counter, and when it expires. -/
structure Entry where
  count : Int
  expireAt : Option Int
  deriving DecidableEq, Repr

structure Redis (κ : Type) where
  now : Int
  entries : κ → Option Entry

namespace Redis

variable {κ : Type} [DecidableEq κ] {r : Redis κ} {k j : κ} {e : Entry} {ms : Int}

/-- The entry of a key that has not expired. -/
def find (k : κ) (r : Redis κ) : Option Entry :=
  (r.entries k).filter fun e => e.expireAt.all (r.now ≤ ·)

def get (k : κ) (r : Redis κ) : Option Int := (r.find k).map (·.count)

/-- Milliseconds to the expiry of an entry, `-1` if it has none. -/
def Entry.ttl (now : Int) (e : Entry) : Int :=
  match e.expireAt with
  | none => -1
  | some t => t - now

def pttl (k : κ) (r : Redis κ) : Int :=
  match r.find k with
  | none => -2
  | some e => Entry.ttl r.now e

def put (k : κ) (e : Option Entry) (r : Redis κ) : Redis κ :=
  { r with entries := Function.update r.entries k e }

def incr (k : κ) (r : Redis κ) : Int × Redis κ :=
  let e := (r.find k).getD ⟨0, none⟩
  (e.count + 1, r.put k (some { e with count := e.count + 1 }))

/-- A time to live that is not positive deletes the key. -/
def pexpire (k : κ) (ms : Int) (r : Redis κ) : Redis κ :=
  match r.find k with
  | none => r
  | some e => r.put k (if ms ≤ 0 then none else some { e with expireAt := some (r.now + ms) })

def wait (ms : Nat) (r : Redis κ) : Redis κ := { r with now := r.now + ms }

/-- The count of a key, where one that is not there counts as zero. -/
def count (k : κ) (r : Redis κ) : Int := (r.get k).getD 0

/-! ## What is found afterwards -/

@[simp] theorem now_put (k : κ) (e : Option Entry) (r : Redis κ) : (r.put k e).now = r.now := rfl

@[simp] theorem find_put_same (k : κ) (e : Option Entry) (r : Redis κ) :
    (r.put k e).find k = e.filter fun e => e.expireAt.all (r.now ≤ ·) := by
  have here : (r.put k e).entries k = e := Function.update_self ..
  unfold find
  rw [here]
  rfl

theorem find_put_other {e : Option Entry} (h : j ≠ k) : (r.put k e).find j = r.find j := by
  have there : (r.put k e).entries j = r.entries j := Function.update_of_ne h ..
  unfold find
  rw [there]
  rfl

theorem live_of_find (h : r.find k = some e) : e.expireAt.all (r.now ≤ ·) = true :=
  (Option.filter_eq_some_iff.mp h).2

theorem live_getD (k : κ) (r : Redis κ) :
    ((r.find k).getD ⟨0, none⟩).expireAt.all (r.now ≤ ·) = true := by
  cases found : r.find k with
  | none => rfl
  | some e => exact live_of_find found

theorem count_eq (k : κ) (r : Redis κ) : r.count k = ((r.find k).getD ⟨0, none⟩).count := by
  unfold count get
  cases r.find k <;> rfl

@[simp] theorem now_incr (k : κ) (r : Redis κ) : (r.incr k).2.now = r.now := rfl

theorem value_incr (k : κ) (r : Redis κ) : (r.incr k).1 = r.count k + 1 := by
  rw [count_eq]
  rfl

theorem find_incr_same (k : κ) (r : Redis κ) :
    (r.incr k).2.find k = some { (r.find k).getD ⟨0, none⟩ with count := r.count k + 1 } := by
  rw [count_eq, incr, find_put_same, Option.filter_some]
  exact if_pos (live_getD k r)

theorem find_incr_other (h : j ≠ k) : (r.incr k).2.find j = r.find j := find_put_other h

@[simp] theorem now_pexpire (k : κ) (ms : Int) (r : Redis κ) : (r.pexpire k ms).now = r.now := by
  unfold pexpire
  split <;> rfl

theorem find_pexpire_same (positive : 0 < ms) (found : r.find k = some e) :
    (r.pexpire k ms).find k = some { e with expireAt := some (r.now + ms) } := by
  have later : r.now ≤ r.now + ms := by omega
  simp [pexpire, found, Int.not_le.mpr positive, later]

theorem find_pexpire_other (h : j ≠ k) : (r.pexpire k ms).find j = r.find j := by
  unfold pexpire
  split
  · rfl
  · exact find_put_other h

theorem count_of_find (h : r.find k = some e) : r.count k = e.count := by
  rw [count_eq, h]
  rfl

theorem count_congr {r' : Redis κ} (h : r'.find k = r.find k) : r'.count k = r.count k := by
  rw [count_eq, count_eq, h]

/-! ## Waiting -/

/-- A key that is not there does not come back. -/
theorem find_wait_none {ms : Nat} (h : r.find k = none) : (r.wait ms).find k = none := by
  unfold find wait at *
  rw [Option.filter_eq_none_iff] at h ⊢
  intro e here
  cases expires : e.expireAt with
  | none => simpa [expires] using h e here
  | some t =>
      have gone := h e here
      simp only [expires, Option.all_some, decide_eq_true_eq] at gone ⊢
      omega

theorem find_wait_some {ms : Nat} (h : (r.wait ms).find k = some e) : r.find k = some e := by
  unfold find wait at *
  rw [Option.filter_eq_some_iff] at h ⊢
  refine ⟨h.1, ?_⟩
  cases expires : e.expireAt with
  | none => rfl
  | some t =>
      have alive := h.2
      simp only [expires, Option.all_some, decide_eq_true_eq] at alive ⊢
      omega

end Redis

end SaasTemplate.RateLimit
