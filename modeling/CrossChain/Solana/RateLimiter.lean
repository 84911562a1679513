import CrossChain.Lib.TokenBucket
import CrossChain.Solana.Basic

/-!
# CrossChain.Solana.RateLimiter

`RateLimiter` (state/peer_config.rs) and the bucket it stands for.

The limiter is lazy: it stores the balance of the last time it was touched,
and settles the seconds since then when it is touched again, in saturating
`u64` arithmetic.  The numbers it stores are those of an eager bucket
(`Stores`) that nothing happened to since; each operation acts on them as the
operation of the same name acts on the bucket once the seconds have passed
(`Stores.apply`), and so does any sequence of operations (`Stores.outcomes`).
-/

namespace CrossChain

/-- `RateLimiter`. -/
structure RateLimiter where
  capacity : UInt64
  tokens : UInt64
  refillPerSecond : UInt64
  lastRefillTime : UInt64
  deriving DecidableEq, Repr

namespace RateLimiter

/-- `RateLimiter::default()`. -/
def default : RateLimiter := ⟨0, 0, 0, 0⟩

/-- The body of `refill`, once the clock has been read. -/
def refillAt (l : RateLimiter) (currentTime extraTokens : UInt64) : RateLimiter :=
  let newTokens :=
    if l.lastRefillTime < currentTime then
      let timeElapsedInSeconds := currentTime - l.lastRefillTime
      extraTokens.saturatingAdd (timeElapsedInSeconds.saturatingMul l.refillPerSecond)
    else extraTokens
  { l with
    tokens := l.capacity.minOf (l.tokens.saturatingAdd newTokens)
    lastRefillTime := currentTime }

/- The methods take `&mut self`: each returns its result together with the
final `self`, because what was written before an `Err` stays written. -/

/-- `RateLimiter::refill`. -/
def refill (l : RateLimiter) (clock : Clock) (extraTokens : UInt64) : Result Unit × RateLimiter :=
  match clock.currentTime with
  | .error e => (.error e, l)
  | .ok currentTime => (.ok (), l.refillAt currentTime extraTokens)

/-- `RateLimiter::set_rate`. -/
def setRate (l : RateLimiter) (clock : Clock) (refillPerSecond : UInt64) :
    Result Unit × RateLimiter :=
  match l.refill clock 0 with
  | (.error e, l) => (.error e, l)
  | (.ok (), l) => (.ok (), { l with refillPerSecond })

/-- `RateLimiter::set_capacity`. -/
def setCapacity (l : RateLimiter) (clock : Clock) (capacity : UInt64) :
    Result Unit × RateLimiter :=
  match clock.currentTime with
  | .error e => (.error e, { l with capacity, tokens := capacity })
  | .ok currentTime =>
      (.ok (), { l with capacity, tokens := capacity, lastRefillTime := currentTime })

/-- `RateLimiter::try_consume`. -/
def tryConsume (l : RateLimiter) (clock : Clock) (amount : UInt64) : Result Unit × RateLimiter :=
  match l.refill clock 0 with
  | (.error e, l) => (.error e, l)
  | (.ok (), l) =>
      match l.tokens.checkedSub amount with
      | some newTokens => (.ok (), { l with tokens := newTokens })
      | none => (.error (.oft .rateLimitExceeded), l)

/-! ## the bucket a limiter stands for -/

/-- A limiter whose balance is within its capacity. -/
def WF (l : RateLimiter) : Prop := l.tokens.toNat ≤ l.capacity.toNat

instance (l : RateLimiter) : Decidable l.WF := inferInstanceAs (Decidable (_ ≤ _))

theorem wf_default : default.WF := le_rfl

/-- The limiter stores the bucket `b`, as of its `lastRefillTime`. -/
structure Stores (l : RateLimiter) (b : Bucket) : Prop where
  capacity : b.capacity = l.capacity.toNat
  rate : b.rate = l.refillPerSecond.toNat
  tokens : b.tokens = l.tokens.toNat

/-- The bucket a limiter stores. -/
def toBucket (l : RateLimiter) (hl : l.WF) : Bucket where
  capacity := l.capacity.toNat
  rate := l.refillPerSecond.toNat
  tokens := l.tokens.toNat
  tokens_le := hl

theorem stores_toBucket {l : RateLimiter} (hl : l.WF) : l.Stores (l.toBucket hl) :=
  ⟨rfl, rfl, rfl⟩

theorem Stores.wf {l : RateLimiter} {b : Bucket} (h : l.Stores b) : l.WF := by
  have := b.tokens_le
  rwa [h.tokens, h.capacity] at this

/-- The seconds a limiter has not settled yet at clock reading `now`. -/
def unsettled (l : RateLimiter) (now : UInt64) : ℕ := now.toNat - l.lastRefillTime.toNat

/-! ## each operation acts on the bucket -/

/-- The balance after a refill, without the saturation: the capacity is a
`u64`, so what saturation cuts off the capacity would have cut off. -/
theorem tokens_refillAt (l : RateLimiter) (now e : UInt64) :
    (l.refillAt now e).tokens.toNat = min l.capacity.toNat
      (l.tokens.toNat + l.unsettled now * l.refillPerSecond.toNat + e.toNat) := by
  have hcap := l.capacity.toNat_le_maxValue
  simp only [refillAt, UInt64.toNat_minOf, UInt64.toNat_saturatingAdd]
  split
  · next h =>
    have hle : l.lastRefillTime ≤ now := UInt64.le_of_lt h
    rw [UInt64.toNat_saturatingAdd, UInt64.toNat_saturatingMul,
      UInt64.toNat_sub_of_le _ _ hle, unsettled]
    omega
  · next h =>
    have hz : l.unsettled now = 0 := by
      rw [UInt64.lt_iff_toNat_lt] at h; unfold unsettled; omega
    rw [hz, Nat.zero_mul, Nat.add_zero]
    omega

/-- What a limiter lets through at clock reading `now`. -/
def available (l : RateLimiter) (now : UInt64) : ℕ :=
  min l.capacity.toNat (l.tokens.toNat + l.unsettled now * l.refillPerSecond.toNat)

theorem toNat_tokens_poll (l : RateLimiter) (now : UInt64) :
    (l.refillAt now 0).tokens.toNat = l.available now := by
  rw [tokens_refillAt, UInt64.toNat_zero, Nat.add_zero, available]

theorem wf_refillAt (l : RateLimiter) (now e : UInt64) : (l.refillAt now e).WF := by
  unfold WF
  rw [tokens_refillAt]
  exact min_le_left _ _

/-- `refill` settles the seconds that have passed, then adds the extra
tokens. -/
theorem Stores.refillAt {l : RateLimiter} {b : Bucket} (h : l.Stores b) (now e : UInt64) :
    (l.refillAt now e).Stores ((b.wait (l.unsettled now)).refill e.toNat) where
  capacity := (b.capacity_wait _).trans h.capacity
  rate := (b.rate_wait _).trans h.rate
  tokens := by
    have := b.tokens_le
    rw [tokens_refillAt]
    simp only [Bucket.refill, Bucket.capacity_wait, Bucket.tokens_wait, h.capacity, h.rate,
      h.tokens]
    omega

/-- A poll settles the limiter and does nothing else. -/
theorem Stores.poll {l : RateLimiter} {b : Bucket} (h : l.Stores b) (now : UInt64) :
    (l.refillAt now 0).Stores (b.wait (l.unsettled now)) := by
  have := h.refillAt now 0
  rwa [UInt64.toNat_zero, Bucket.refill_zero] at this

/-- Taking `a` from the stored balance succeeds when taking it from the
bucket does, and stores what is left. -/
theorem Stores.checkedSub {l : RateLimiter} {b : Bucket} (h : l.Stores b) (a : UInt64) :
    match l.tokens.checkedSub a with
    | some newTokens => ∃ b', b.tryConsume a.toNat = some b' ∧
        Stores { l with tokens := newTokens } b'
    | none => b.tryConsume a.toNat = none := by
  unfold Bucket.tryConsume
  split
  · next newTokens hsub =>
    rw [UInt64.checkedSub_eq_some] at hsub
    have htok := h.tokens
    rw [if_pos (by omega)]
    refine ⟨_, rfl, h.capacity, h.rate, ?_⟩
    simp only
    omega
  · next hsub =>
    rw [UInt64.checkedSub_eq_none] at hsub
    have htok := h.tokens
    rw [if_neg (by omega)]

section Reading

variable {clock : Clock} {now : UInt64} (hclock : clock.currentTime = .ok now)
include hclock

theorem refill_eq (l : RateLimiter) (e : UInt64) :
    l.refill clock e = (.ok (), l.refillAt now e) := by
  simp only [refill, hclock]

theorem setRate_eq (l : RateLimiter) (r : UInt64) :
    l.setRate clock r = (.ok (), { l.refillAt now 0 with refillPerSecond := r }) := by
  simp only [setRate, refill, hclock]

theorem setCapacity_eq (l : RateLimiter) (c : UInt64) :
    l.setCapacity clock c =
      (.ok (), { l with capacity := c, tokens := c, lastRefillTime := now }) := by
  simp only [setCapacity, hclock]

theorem tryConsume_eq (l : RateLimiter) (a : UInt64) :
    l.tryConsume clock a = match (l.refillAt now 0).tokens.checkedSub a with
      | some newTokens => (.ok (), { l.refillAt now 0 with tokens := newTokens })
      | none => (.error (.oft .rateLimitExceeded), l.refillAt now 0) := by
  simp only [tryConsume, refill, hclock]

end Reading

/-! ## sequences of operations -/

/-- The operations on a limiter. -/
inductive Op where
  | setCapacity (capacity : UInt64)
  | setRate (refillPerSecond : UInt64)
  | refill (extraTokens : UInt64)
  | tryConsume (amount : UInt64)
  deriving DecidableEq, Repr

/-- The operation of the same name on a bucket. -/
def Op.onBucket : Op → Bucket.Op
  | .setCapacity c => .setCapacity c.toNat
  | .setRate r => .setRate r.toNat
  | .refill e => .refill e.toNat
  | .tryConsume a => .tryConsume a.toNat

/-- One operation at a clock. -/
def apply (l : RateLimiter) (clock : Clock) : Op → Result Unit × RateLimiter
  | .setCapacity c => l.setCapacity clock c
  | .setRate r => l.setRate clock r
  | .refill e => l.refill clock e
  | .tryConsume a => l.tryConsume clock a

/-- Whether a method returned `Ok`. -/
def accepted : Result Unit → Bool
  | .ok _ => true
  | .error _ => false

/-- What a caller sees of a sequence of operations: which were accepted, and
the balance after each. -/
def outcomes : RateLimiter → List (Clock × Op) → List (Bool × ℕ)
  | _, [] => []
  | l, (clock, op) :: ops =>
      let r := l.apply clock op
      (accepted r.1, r.2.tokens.toNat) :: outcomes r.2 ops

/-- One operation acts on the limiter as, after the unsettled seconds, the
operation of the same name acts on the bucket; the limiter is then settled
at the clock reading. -/
theorem Stores.apply {l : RateLimiter} {b : Bucket} (h : l.Stores b) {clock : Clock}
    {now : UInt64} (hclock : clock.currentTime = .ok now) (op : Op) :
    accepted (l.apply clock op).1 = ((b.wait (l.unsettled now)).apply op.onBucket).1 ∧
      (l.apply clock op).2.lastRefillTime = now ∧
      (l.apply clock op).2.Stores ((b.wait (l.unsettled now)).apply op.onBucket).2 := by
  have hpoll := h.poll now
  cases op with
  | setCapacity c =>
      simp only [RateLimiter.apply, setCapacity_eq hclock]
      exact ⟨rfl, trivial, rfl, (b.rate_wait _).trans h.rate, rfl⟩
  | setRate r =>
      simp only [RateLimiter.apply, setRate_eq hclock]
      exact ⟨rfl, rfl, hpoll.capacity, rfl, hpoll.tokens⟩
  | refill e =>
      simp only [RateLimiter.apply, refill_eq hclock]
      exact ⟨rfl, rfl, h.refillAt now e⟩
  | tryConsume a =>
      have hsub := hpoll.checkedSub a
      simp only [RateLimiter.apply, tryConsume_eq hclock, Op.onBucket, Bucket.apply]
      split at hsub
      · next newTokens _ =>
        obtain ⟨b', hb', hstores⟩ := hsub
        rw [hb']
        exact ⟨rfl, rfl, hstores⟩
      · rw [hsub]
        exact ⟨rfl, rfl, hpoll⟩

/-- Clock readings that never go back, starting no earlier than `last`. -/
def Timed (last : ℤ) (ops : List (Clock × Op)) : Prop :=
  List.IsChain (· ≤ ·) (last :: ops.map fun o => o.1.unixTimestamp.toInt)

instance (last : ℤ) (ops : List (Clock × Op)) : Decidable (Timed last ops) :=
  inferInstanceAs (Decidable (List.IsChain _ _))

/-- The same sequence for the bucket. -/
def onBucket (ops : List (Clock × Op)) : List (ℕ × Bucket.Op) :=
  ops.map fun o => (o.1.unixTimestamp.toInt.toNat, o.2.onBucket)

/-- A reading after a `u64` time is a `u64` time. -/
theorem exists_currentTime {clock : Clock} {last : UInt64}
    (h : (last.toNat : ℤ) ≤ clock.unixTimestamp.toInt) :
    ∃ now, clock.currentTime = .ok now ∧ clock.unixTimestamp.toInt.toNat = now.toNat ∧
      (now.toNat : ℤ) = clock.unixTimestamp.toInt := by
  have hlt : clock.unixTimestamp.toInt < 2 ^ 63 := Int64.toInt_lt clock.unixTimestamp
  have hn : (UInt64.ofNat clock.unixTimestamp.toInt.toNat).toNat =
      clock.unixTimestamp.toInt.toNat := UInt64.toNat_ofNat_of_lt_two_pow (by omega)
  refine ⟨UInt64.ofNat clock.unixTimestamp.toInt.toNat, ?_, hn.symm, by omega⟩
  rw [Clock.currentTime_eq_ok, hn]
  omega

/-- The lazy limiter shows its callers exactly what the eager bucket would,
operation by operation. -/
theorem Stores.outcomes {l : RateLimiter} {b : Bucket} (h : l.Stores b)
    {ops : List (Clock × Op)} (hops : Timed l.lastRefillTime.toNat ops) :
    l.outcomes ops = b.outcomes l.lastRefillTime.toNat (onBucket ops) := by
  induction ops generalizing l b with
  | nil => rfl
  | cons o ops ih =>
      obtain ⟨clock, op⟩ := o
      obtain ⟨hle, hrest⟩ := List.isChain_cons_cons.mp hops
      obtain ⟨now, hclock, hnat, hint⟩ := exists_currentTime hle
      obtain ⟨hacc, hlast, hstores⟩ := h.apply hclock op
      have htimed : Timed (l.apply clock op).2.lastRefillTime.toNat ops := by
        rw [hlast, hint]; exact hrest
      have htail := ih hstores htimed
      rw [hlast] at htail
      simp only [RateLimiter.outcomes, onBucket, List.map_cons, Bucket.outcomes, hnat]
      exact congrArg₂ List.cons (Prod.ext hacc hstores.tokens.symm) htail

theorem Timed.onBucket {last : ℕ} {ops : List (Clock × Op)} (h : Timed last ops) :
    Bucket.Timed last (onBucket ops) := by
  have hmap := List.isChain_map_of_isChain (R := (· ≤ ·)) (S := (· ≤ ·)) Int.toNat
    (fun _ _ => Int.toNat_le_toNat) h
  simpa [Bucket.Timed, RateLimiter.onBucket, Function.comp_def] using hmap

/-- The lazy `u64` limiter refines the eager bucket in unbounded naturals:
over any operations at clock readings that do not go back, it accepts and
rejects the same consumptions and shows the same balances.  In particular an
extra poll changes nothing that comes after it, and a rate change shows
nothing a poll in its place would not have shown. -/
theorem lazy_refines_eager (l : RateLimiter) (hl : l.WF) :
    (∀ ops, Timed l.lastRefillTime.toNat ops →
      l.outcomes ops = (l.toBucket hl).outcomes l.lastRefillTime.toNat (onBucket ops)) ∧
    (∀ front clock back, Timed l.lastRefillTime.toNat (front ++ (clock, .refill 0) :: back) →
      (l.outcomes (front ++ (clock, .refill 0) :: back)).drop (front.length + 1) =
        (l.outcomes (front ++ back)).drop front.length) ∧
    (∀ front clock r, Timed l.lastRefillTime.toNat (front ++ [(clock, .setRate r)]) →
      l.outcomes (front ++ [(clock, .setRate r)]) =
        l.outcomes (front ++ [(clock, .refill 0)])) := by
  have hstores := stores_toBucket hl
  refine ⟨fun ops hops => hstores.outcomes hops, ?_, ?_⟩
  · intro front clock back hops
    have hops' : Timed l.lastRefillTime.toNat (front ++ back) := by
      refine List.IsChain.sublist hops ?_
      simp
    rw [hstores.outcomes hops, hstores.outcomes hops']
    have htimed : Bucket.Timed l.lastRefillTime.toNat (onBucket front ++
        (clock.unixTimestamp.toInt.toNat, .refill 0) :: onBucket back) := by
      simpa [onBucket, Op.onBucket] using hops.onBucket
    have hdrop := Bucket.outcomes_drop_refill_zero (l.toBucket hl) htimed
    simpa [onBucket, Op.onBucket] using hdrop
  · intro front clock r hops
    have hops' : Timed l.lastRefillTime.toNat (front ++ [(clock, .refill 0)]) := by
      simpa [Timed] using hops
    rw [hstores.outcomes hops, hstores.outcomes hops']
    have hlast := Bucket.outcomes_setRate_last (l.toBucket hl) l.lastRefillTime.toNat
      clock.unixTimestamp.toInt.toNat r.toNat (onBucket front)
    simpa [onBucket, Op.onBucket] using hlast

/-- The three parts at a limiter half full at time 10, polled and repriced at
time 13. -/
theorem lazy_refines_eager_example :
    let l : RateLimiter := ⟨100, 50, 3, 10⟩
    let poll : Clock × Op := (⟨13, 0⟩, .refill 0)
    l.outcomes [poll, (⟨14, 0⟩, .tryConsume 62)] = [(true, 59), (true, 0)] ∧
    (l.outcomes [poll, (⟨14, 0⟩, .tryConsume 62)]).drop 1 =
      l.outcomes [(⟨14, 0⟩, .tryConsume 62)] ∧
    l.outcomes [(⟨13, 0⟩, .setRate 1000)] = l.outcomes [poll] :=
  have h := lazy_refines_eager ⟨100, 50, 3, 10⟩ (by decide)
  ⟨(h.1 _ (by decide)).trans (by decide), h.2.1 [] _ [_] (by decide), h.2.2 [] _ _ (by decide)⟩

end RateLimiter

end CrossChain
