import Mathlib.Logic.Function.Iterate
import Mathlib.Order.Lattice
import Mathlib.Order.Nat
import Mathlib.Data.List.Chain

/-!
# CrossChain.Lib.TokenBucket

The token bucket, as the textbook process: a bucket gains `rate` tokens
every second, never holds more than `capacity`, and an amount may leave it
only while that many tokens are there.

* `Bucket` carries `tokens ≤ capacity` as a field, so no operation can
  produce an overfull bucket;
* `tick` is one second and `wait` a number of them; `tokens_wait` is the
  closed form that a lazy implementation computes;
* `Flows` bounds what may leave a bucket over a time span, and composes
  along runs (`Flows.trans`);
* `Moves` says what is left in it.
-/

/-- A token bucket: at most `capacity` tokens, `rate` more every second. -/
structure Bucket where
  capacity : ℕ
  rate : ℕ
  tokens : ℕ
  tokens_le : tokens ≤ capacity
  deriving DecidableEq, Repr

namespace Bucket

/-- Two buckets with the same three numbers are equal. -/
theorem eq_of_fields {b b' : Bucket} (hc : b.capacity = b'.capacity) (hr : b.rate = b'.rate)
    (ht : b.tokens = b'.tokens) : b = b' := by
  cases b; cases b'; simp_all

/-! ## time -/

/-- One second: `rate` more tokens, up to the capacity. -/
def tick (b : Bucket) : Bucket :=
  { b with tokens := min b.capacity (b.tokens + b.rate), tokens_le := min_le_left _ _ }

/-- `k` seconds, one at a time. -/
def wait (b : Bucket) (k : ℕ) : Bucket := tick^[k] b

@[simp] theorem wait_zero (b : Bucket) : b.wait 0 = b := rfl

theorem wait_succ (b : Bucket) (k : ℕ) : b.wait (k + 1) = (b.wait k).tick :=
  Function.iterate_succ_apply' tick k b

theorem wait_add (b : Bucket) (j k : ℕ) : b.wait (j + k) = (b.wait j).wait k := by
  rw [wait, Nat.add_comm, Function.iterate_add_apply]; rfl

@[simp] theorem capacity_wait (b : Bucket) (k : ℕ) : (b.wait k).capacity = b.capacity := by
  induction k with
  | zero => rfl
  | succ k ih => rw [wait_succ]; exact ih

@[simp] theorem rate_wait (b : Bucket) (k : ℕ) : (b.wait k).rate = b.rate := by
  induction k with
  | zero => rfl
  | succ k ih => rw [wait_succ]; exact ih

/-- The closed form of waiting: all the tokens of `k` seconds at once, capped
once. -/
theorem tokens_wait (b : Bucket) (k : ℕ) :
    (b.wait k).tokens = min b.capacity (b.tokens + k * b.rate) := by
  induction k with
  | zero =>
      have := b.tokens_le
      simp only [wait_zero, Nat.zero_mul, Nat.add_zero]
      omega
  | succ k ih =>
      have hstep : (b.wait (k + 1)).tokens =
          min (b.wait k).capacity ((b.wait k).tokens + (b.wait k).rate) := by
        rw [wait_succ]; rfl
      rw [hstep, capacity_wait, rate_wait, ih, Nat.succ_mul]
      omega

/-! ## operations -/

/-- A new capacity; the bucket is filled to it. -/
def setCapacity (b : Bucket) (c : ℕ) : Bucket :=
  { b with capacity := c, tokens := c, tokens_le := le_rfl }

/-- A new rate, from now on. -/
def setRate (b : Bucket) (r : ℕ) : Bucket := { b with rate := r }

/-- `e` extra tokens, up to the capacity. -/
def refill (b : Bucket) (e : ℕ) : Bucket :=
  { b with tokens := min b.capacity (b.tokens + e), tokens_le := min_le_left _ _ }

/-- Take `a` tokens, if they are there. -/
def tryConsume (b : Bucket) (a : ℕ) : Option Bucket :=
  if a ≤ b.tokens then
    some { b with tokens := b.tokens - a, tokens_le := (Nat.sub_le _ _).trans b.tokens_le }
  else none

theorem refill_zero (b : Bucket) : b.refill 0 = b :=
  eq_of_fields rfl rfl (min_eq_right b.tokens_le)

/-- The operations on a bucket. -/
inductive Op where
  | setCapacity (capacity : ℕ)
  | setRate (rate : ℕ)
  | refill (extra : ℕ)
  | tryConsume (amount : ℕ)
  deriving DecidableEq, Repr

/-- One operation: whether it was accepted, and the bucket after it.  A
rejected consumption leaves the bucket as it was. -/
def apply (b : Bucket) : Op → Bool × Bucket
  | .setCapacity c => (true, b.setCapacity c)
  | .setRate r => (true, b.setRate r)
  | .refill e => (true, b.refill e)
  | .tryConsume a =>
      match b.tryConsume a with
      | some b' => (true, b')
      | none => (false, b)

/-- What a caller sees of a sequence of timed operations on a bucket last
looked at at time `last`: which were accepted, and the tokens after each.
In between, the bucket runs second by second. -/
def outcomes : Bucket → ℕ → List (ℕ × Op) → List (Bool × ℕ)
  | _, _, [] => []
  | b, last, (now, op) :: ops =>
      let r := (b.wait (now - last)).apply op
      (r.1, r.2.tokens) :: outcomes r.2 now ops

/-- Times that never go back, starting no earlier than `last`. -/
def Timed (last : ℕ) (ops : List (ℕ × Op)) : Prop :=
  List.IsChain (· ≤ ·) (last :: ops.map Prod.fst)

/-- A refill of nothing may be left out: what is seen after it is the same. -/
theorem outcomes_drop_refill_zero (b : Bucket) {last now : ℕ} {front back : List (ℕ × Op)}
    (h : Timed last (front ++ (now, .refill 0) :: back)) :
    (b.outcomes last (front ++ (now, .refill 0) :: back)).drop (front.length + 1) =
      (b.outcomes last (front ++ back)).drop front.length := by
  induction front generalizing b last with
  | nil =>
      obtain ⟨hle, hrest⟩ := List.isChain_cons_cons.mp h
      cases back with
      | nil => rfl
      | cons o back =>
          have hle' : now ≤ o.1 := (List.isChain_cons_cons.mp hrest).1
          have hwait : (b.wait (now - last)).wait (o.1 - now) = b.wait (o.1 - last) := by
            rw [← wait_add]; congr 1; omega
          simp only [List.nil_append, outcomes, apply, refill_zero, hwait, List.length_nil,
            List.drop_succ_cons, List.drop_zero]
  | cons o front ih =>
      obtain ⟨_, hrest⟩ := List.isChain_cons_cons.mp h
      simp only [List.cons_append, outcomes, List.length_cons, List.drop_succ_cons]
      exact ih _ hrest

/-- A new rate leaves the tokens of the time before it as they were: at the
change itself, nothing more is seen than at a refill of nothing. -/
theorem outcomes_setRate_last (b : Bucket) (last now r : ℕ) (front : List (ℕ × Op)) :
    b.outcomes last (front ++ [(now, .setRate r)]) =
      b.outcomes last (front ++ [(now, .refill 0)]) := by
  induction front generalizing b last with
  | nil => simp only [List.nil_append, outcomes, apply, refill_zero, setRate]
  | cons o front ih => simp only [List.cons_append, outcomes, ih]

/-! ## what can flow out -/

/-- Between `b` and `b'`, `dt` seconds later, `taken` tokens left the bucket
and `given` were put back, under one capacity and rate. -/
structure Flows (b b' : Bucket) (dt taken given : ℕ) : Prop where
  capacity : b'.capacity = b.capacity
  rate : b'.rate = b.rate
  tokens : b'.tokens + taken ≤ b.tokens + b.rate * dt + given

namespace Flows

theorem refl (b : Bucket) : Flows b b 0 0 0 := ⟨rfl, rfl, by omega⟩

/-- Flows add up along a run. -/
theorem trans {b₁ b₂ b₃ : Bucket} {dt dt' taken taken' given given' : ℕ}
    (h : Flows b₁ b₂ dt taken given) (h' : Flows b₂ b₃ dt' taken' given') :
    Flows b₁ b₃ (dt + dt') (taken + taken') (given + given') := by
  refine ⟨h'.capacity.trans h.capacity, h'.rate.trans h.rate, ?_⟩
  have h1 := h.tokens
  have h2 := h'.tokens
  rw [h.rate] at h2
  rw [Nat.mul_add]
  omega

theorem wait (b : Bucket) (dt : ℕ) : Flows b (b.wait dt) dt 0 0 := by
  refine ⟨capacity_wait b dt, rate_wait b dt, ?_⟩
  rw [tokens_wait, Nat.mul_comm dt]
  omega

theorem refill (b : Bucket) (e : ℕ) : Flows b (b.refill e) 0 0 e := by
  refine ⟨rfl, rfl, ?_⟩
  simp only [Bucket.refill]
  omega

theorem tryConsume {b b' : Bucket} {a : ℕ} (h : b.tryConsume a = some b') :
    Flows b b' 0 a 0 := by
  unfold Bucket.tryConsume at h
  split at h
  · next hle =>
    rw [← Option.some.inj h]
    refine ⟨rfl, rfl, ?_⟩
    simp only
    omega
  · contradiction

/-- The flow bound: what leaves a bucket in `dt` seconds is at most its
capacity, plus `dt` seconds of its rate, plus what was put back. -/
theorem taken_le {b b' : Bucket} {dt taken given : ℕ} (h : Flows b b' dt taken given) :
    taken ≤ b.capacity + b.rate * dt + given := by
  have h1 := h.tokens
  have h2 := b.tokens_le
  omega

end Flows

/-- Over `dt` seconds `given` tokens were put into `b` and then `taken` were
taken out, which left `b'`; what did not fit ran over. -/
structure Moves (b b' : Bucket) (dt taken given : ℕ) : Prop where
  capacity : b'.capacity = b.capacity
  rate : b'.rate = b.rate
  tokens : b'.tokens + taken = min b.capacity (b.tokens + b.rate * dt + given)

namespace Moves

theorem wait (b : Bucket) (dt : ℕ) : Moves b (b.wait dt) dt 0 0 := by
  refine ⟨capacity_wait b dt, rate_wait b dt, ?_⟩
  rw [tokens_wait, Nat.mul_comm dt]
  rfl

theorem refill (b : Bucket) (dt e : ℕ) : Moves b ((b.wait dt).refill e) dt 0 e := by
  have hwait := tokens_wait b dt
  rw [Nat.mul_comm dt] at hwait
  refine ⟨capacity_wait b dt, rate_wait b dt, ?_⟩
  simp only [Bucket.refill, capacity_wait]
  omega

theorem tryConsume {b b' : Bucket} {dt a : ℕ} (h : (b.wait dt).tryConsume a = some b') :
    Moves b b' dt a 0 := by
  have hwait := tokens_wait b dt
  rw [Nat.mul_comm dt] at hwait
  unfold Bucket.tryConsume at h
  split at h
  · next hle =>
    rw [← Option.some.inj h]
    refine ⟨capacity_wait b dt, rate_wait b dt, ?_⟩
    simp only
    omega
  · contradiction

end Moves

end Bucket
