import CrossChain.Lib.Reservoir
import CrossChain.Solana.Limits

/-!
# CrossChain.Solana.Windows

What a rate limiter lets through, read off the history of its transfers.

The flow bound says that no more than a budget goes through a limiter in any
span of time.  Here is the other half: a limiter refuses an amount only when
some span would exceed its budget.  The bucket a limiter stands for is a
reservoir of `CrossChain.Lib.Reservoir`, whose level is what every span
leaves.
-/

namespace CrossChain

open Reservoir

namespace Node

variable {env : Externals}

/-! ## a limiter as a reservoir -/

/-- What a step does to a limiter, it does to the bucket, token by token. -/
theorem Touched.moves {l : RateLimiter} {new : Option RateLimiter} {ev : Event} {x y t : ℕ}
    {b : Bucket} (h : Touched (some l) new ev x y) (hl : l.Holds t b) (ht : t ≤ ev.time t) :
    ∃ l' b', new = some l' ∧ l'.Holds (ev.time t) b' ∧ b.Moves b' (ev.time t - t) x y := by
  cases h with
  | kept h => exact ⟨l, _, h, hl.wait ht, Bucket.Moves.wait b _⟩
  | @consumed tx a h =>
      obtain ⟨l', hop, rfl⟩ := onLimiter_some.mp h
      obtain ⟨haccepted, hholds⟩ := hl.apply ht hop
      simp only [RateLimiter.Op.onBucket, Bucket.apply] at haccepted hholds
      cases hconsume : (b.wait (tx.clock.seconds - t)).tryConsume a.toNat with
      | none => rw [hconsume] at haccepted; contradiction
      | some b' =>
          rw [hconsume] at hholds
          exact ⟨l', b', rfl, hholds, Bucket.Moves.tryConsume hconsume⟩
  | @refilled tx a h =>
      obtain ⟨l', hop, rfl⟩ := onLimiter_some.mp h
      obtain ⟨-, hholds⟩ := hl.apply ht hop
      exact ⟨l', _, rfl, hholds, Bucket.Moves.refill b _ a.toNat⟩

/-- The flows of a limiter that gains `rate` a second, along steps that start
at time `t`. -/
def flows (env : Externals) (side : Side) (eid : UInt32) (rate : ℕ) :
    ℕ → List (Node × Event) → List (Flow ℤ)
  | _, [] => []
  | t, e :: es =>
      ⟨rate * (e.2.time t - t : ℕ) + given env side eid e, taken env side eid e⟩ ::
        flows env side eid rate (e.2.time t) es

/-- Along a run that does not reconfigure a limiter, its bucket is the
reservoir with these flows. -/
theorem level_run {side : Side} {eid : UInt32} {events : List Event} {n : Node} {l : RateLimiter}
    {b : Bucket} {t : ℕ} (hset : n.limiterAt side eid = some l) (hl : l.Holds t b)
    (ht : Timed t events)
    (hkept : ∀ e ∈ Run.trace (step env) n events, ¬ Reconfigures env side eid e) :
    ∃ l' b', (Run.final (step env) n events).limiterAt side eid = some l' ∧
      l'.Holds (endTime t events) b' ∧ b'.capacity = b.capacity ∧ b'.rate = b.rate ∧
      (b'.tokens : ℤ) = level (b.capacity : ℤ) b.tokens
        (flows env side eid b.rate t (Run.trace (step env) n events)) := by
  induction events generalizing n l b t with
  | nil => exact ⟨l, b, hset, hl, rfl, rfl, rfl⟩
  | cons ev events ih =>
      have htouched := (stepped env n ev).touched side eid (hkept _ List.mem_cons_self)
      rw [hset] at htouched
      obtain ⟨l₁, b₁, hset₁, hl₁, hmoves⟩ := htouched.moves hl ht.1
      obtain ⟨l', b', hset', hl', hcapacity, hrate, htokens⟩ := ih hset₁ hl₁ ht.2
        fun e he => hkept e (List.mem_cons_of_mem _ he)
      have hmoved := hmoves.tokens
      have hlevel : (b₁.tokens : ℤ) = min (b.capacity : ℤ) (b.tokens +
          (b.rate * (ev.time t - t : ℕ) + given env side eid (n, ev))) -
            taken env side eid (n, ev) := by
        rw [← Nat.cast_mul]
        omega
      refine ⟨l', b', hset', hl', hcapacity.trans hmoves.capacity, hrate.trans hmoves.rate, ?_⟩
      rw [htokens, hmoves.capacity, hmoves.rate, hlevel]
      rfl

/-! ## sums of flows -/

/-- All that flows out is what the steps take. -/
theorem loss_flows (side : Side) (eid : UInt32) (rate t : ℕ) (es : List (Node × Event)) :
    loss (flows env side eid rate t es) = ((es.map (taken env side eid)).sum : ℕ) := by
  induction es generalizing t with
  | nil => rfl
  | cons e es ih => rw [flows, loss_cons, ih, List.map_cons, List.sum_cons, Nat.cast_add]

variable (env) in
/-- All that flows in by time `now` is what the time since is worth and what
the steps give. -/
theorem gain_flows (side : Side) (eid : UInt32) (rate : ℕ) {t now : ℕ}
    {es : List (Node × Event)} (ht : Timed t (es.map (·.2)))
    (hnow : endTime t (es.map (·.2)) ≤ now) :
    gain (flows env side eid rate t es) + rate * (now - endTime t (es.map (·.2)) : ℕ) =
      (rate * (now - t) + (es.map (given env side eid)).sum : ℕ) := by
  induction es generalizing t with
  | nil => simp [flows, endTime]
  | cons e es ih =>
      have htail := ih ht.2 hnow
      have hle : t ≤ e.2.time t := ht.1
      have hend : e.2.time t ≤ now := (le_endTime ht.2).trans hnow
      have hspan : rate * (now - t) = rate * (e.2.time t - t) + rate * (now - e.2.time t) := by
        rw [← Nat.mul_add]
        congr 1
        omega
      rw [flows, gain_cons, List.map_cons, List.map_cons, List.sum_cons, endTime, add_assoc, htail,
        hspan]
      push_cast
      omega

/-- The stretches of the flows are those of the steps. -/
theorem leaves_flows {side : Side} {eid : UInt32} {rate t now : ℕ} {cap a : ℤ}
    {es : List (Node × Event)} (ht : Timed t (es.map (·.2)))
    (hnow : endTime t (es.map (·.2)) ≤ now) :
    Leaves cap a (flows env side eid rate t es ++
        [⟨(rate * (now - endTime t (es.map (·.2))) : ℕ), 0⟩]) ↔
      a ≤ cap ∧ ∀ front e back, es = front ++ e :: back →
        (taken env side eid e + (back.map (taken env side eid)).sum : ℕ) + a ≤ cap +
          (rate * (now - endTime t (front.map (·.2) ++ [e.2])) +
            (back.map (given env side eid)).sum : ℕ) := by
  induction es generalizing t with
  | nil =>
      rw [flows, List.nil_append, leaves_cons, loss_nil, gain_nil, add_zero, zero_add, add_zero]
      refine and_congr_right fun _ => iff_of_true (leaves_nil _ _) fun front e back h => ?_
      simp at h
  | cons e es ih =>
      have hle : t ≤ e.2.time t := ht.1
      have hgain := gain_flows env side eid rate ht.2 hnow
      have hlast : endTime t ((e :: es).map (·.2)) = endTime (e.2.time t) (es.map (·.2)) := rfl
      rw [flows, List.cons_append, leaves_cons, hlast, ih ht.2 hnow, forall_cut_cons, loss_append,
        loss_flows, gain_append, gain_cons, loss_cons, gain_nil, loss_nil, add_zero, add_zero,
        add_zero, Nat.cast_mul, hgain, ← Nat.cast_add]
      exact and_left_comm

/-! ## what is available -/

end Node

/-- What is available is what the bucket then holds. -/
theorem RateLimiter.Holds.available {l : RateLimiter} {t : ℕ} {b : Bucket} {now : UInt64}
    (h : l.Holds t b) (ht : t ≤ now.toNat) :
    l.available now = (b.wait (now.toNat - t)).tokens := by
  obtain ⟨hlast, b₀, hstores, rfl⟩ := h
  have hspan : t - l.lastRefillTime.toNat + (now.toNat - t) = l.unsettled now := by
    rw [unsettled]
    omega
  rw [← Bucket.wait_add, hspan, Bucket.tokens_wait, hstores.capacity, hstores.rate,
    hstores.tokens, RateLimiter.available]

theorem endTime_append (t : ℕ) (before after : List Event) :
    endTime t (before ++ after) = endTime (endTime t before) after := by
  induction before generalizing t with
  | nil => rfl
  | cons ev before ih => exact ih _

namespace Node

variable {env : Externals}

/-- After these steps from limiter `l` at time `t`, amount `a` at time `now`
keeps every span of time within its budget: the capacity by itself, all the
steps from what `l` stored and from a full limiter, and from any of the steps
on. -/
structure InBudget (env : Externals) (side : Side) (eid : UInt32) (l : RateLimiter) (t now : ℕ)
    (steps : List (Node × Event)) (a : ℕ) : Prop where
  capacity : a ≤ l.capacity.toNat
  stored : (steps.map (taken env side eid)).sum + a ≤ l.tokens.toNat +
    l.refillPerSecond.toNat * (now - l.lastRefillTime.toNat) +
      (steps.map (given env side eid)).sum
  full : (steps.map (taken env side eid)).sum + a ≤ l.capacity.toNat +
    l.refillPerSecond.toNat * (now - t) + (steps.map (given env side eid)).sum
  span : ∀ front e back, steps = front ++ e :: back →
    taken env side eid e + (back.map (taken env side eid)).sum + a ≤ l.capacity.toNat +
      l.refillPerSecond.toNat * (now - endTime t (front.map (·.2) ++ [e.2])) +
        (back.map (given env side eid)).sum

theorem settled_of_created {n : Node} (h : InitOFT.Created env n) : n.Settled 0 := by
  obtain ⟨endpoint, tokens, acc, remaining, params, happly⟩ := h
  intro side eid l hl
  rw [limiterAt, (InitOFT.initialized happly).peers eid] at hl
  contradiction

/-- What is available at the end of a stretch is what is in budget. -/
theorem le_available_iff {side : Side} {eid : UInt32} {events : List Event} {n : Node}
    {l : RateLimiter} {t a : ℕ} {now : UInt64} (hset : n.limiterAt side eid = some l) (hl : l.WF)
    (hlast : l.lastRefillTime.toNat ≤ t) (ht : Timed t events)
    (hkept : ∀ e ∈ Run.trace (step env) n events, ¬ Reconfigures env side eid e)
    (hnow : endTime t events ≤ now.toNat) :
    ∃ l', (Run.final (step env) n events).limiterAt side eid = some l' ∧
      (a ≤ l'.available now ↔
        InBudget env side eid l t now.toNat (Run.trace (step env) n events) a) := by
  have hholds := RateLimiter.holds_toBucket hl hlast
  obtain ⟨l', b', hset', hl', hcapacity, hrate, htokens⟩ := level_run hset hholds ht hkept
  refine ⟨l', hset', ?_⟩
  have hevents := (Run.map_snd_trace (step env) n events).symm
  generalize Run.trace (step env) n events = steps at htokens hevents ⊢
  rw [hevents] at ht hnow hl'
  -- waiting until `now` is one more step, that takes nothing
  have hlevel : a ≤ l'.available now ↔ (a : ℤ) ≤ level (l.capacity.toNat : ℤ)
      (min l.capacity.toNat (l.tokens.toNat + (t - l.lastRefillTime.toNat) *
        l.refillPerSecond.toNat) : ℕ)
      (flows env side eid l.refillPerSecond.toNat t steps ++
        [⟨(l.refillPerSecond.toNat * (now.toNat - endTime t (steps.map (·.2))) : ℕ), 0⟩]) := by
    rw [Bucket.capacity_wait, Bucket.rate_wait, Bucket.tokens_wait] at htokens
    rw [Bucket.capacity_wait] at hcapacity
    rw [Bucket.rate_wait] at hrate
    rw [hl'.available hnow, Bucket.tokens_wait, hcapacity, hrate, level_append, level_cons,
      level_nil, sub_zero, Nat.mul_comm (now.toNat - _)]
    have hsame : level (l.capacity.toNat : ℤ) (min l.capacity.toNat (l.tokens.toNat +
        (t - l.lastRefillTime.toNat) * l.refillPerSecond.toNat) : ℕ)
        (flows env side eid l.refillPerSecond.toNat t steps) = b'.tokens := htokens.symm
    have hcap : (l.toBucket hl).capacity = l.capacity.toNat := rfl
    have hgain : (l.toBucket hl).rate = l.refillPerSecond.toNat := rfl
    rw [hsame, hcap, hgain]
    dsimp only
    omega
  rw [hlevel, le_level_iff, leaves_flows ht hnow, loss_append, gain_append, loss_flows,
    gain_cons, loss_cons, gain_nil, loss_nil, add_zero, add_zero, add_zero, Nat.cast_mul,
    gain_flows env side eid _ ht hnow]
  have hle := (le_endTime ht).trans hnow
  have hsince : l.refillPerSecond.toNat * (now.toNat - l.lastRefillTime.toNat) =
      (t - l.lastRefillTime.toNat) * l.refillPerSecond.toNat +
        l.refillPerSecond.toNat * (now.toNat - t) := by
    rw [Nat.mul_comm (t - _), ← Nat.mul_add]
    congr 1
    omega
  constructor
  · rintro ⟨hstart, hcap, hrest⟩
    refine ⟨by omega, by omega, by omega, fun front e back h => ?_⟩
    have hspan := hrest front e back h
    omega
  · rintro ⟨hcap, hstored, hfull, hrest⟩
    refine ⟨by omega, by omega, fun front e back h => ?_⟩
    have hspan := hrest front e back h
    omega

/-- The limiter is exact.  In every run from `init_oft` with a clock that
does not go back, after any stretch that does not reconfigure a limiter, it
lets an amount through if that keeps every span of the stretch within its
budget, and otherwise refuses it with `RateLimitExceeded`. -/
theorem limiter_exact (env : Externals) (n₀ : Node) (hinit : InitOFT.Created env n₀)
    (before during : List Event) (htimed : Timed 0 (before ++ during)) (side : Side)
    (eid : UInt32) (l : RateLimiter) (clock : Clock) (now a : UInt64) :
    let m := Run.final (step env) n₀ before
    let steps := Run.trace (step env) m during
    let limiter := (Run.final (step env) m during).limiterAt side eid
    m.limiterAt side eid = some l → (∀ e ∈ steps, ¬ Reconfigures env side eid e) →
    clock.currentTime = .ok now → endTime 0 (before ++ during) ≤ now.toNat →
    (InBudget env side eid l (endTime 0 before) now.toNat steps a.toNat →
      (onLimiter limiter (·.tryConsume clock a)).isOk) ∧
    (¬ InBudget env side eid l (endTime 0 before) now.toNat steps a.toNat →
      onLimiter limiter (·.tryConsume clock a) = .error (.oft .rateLimitExceeded)) := by
  intro m steps limiter hl hkept hclock hnow
  obtain ⟨hbefore, hduring⟩ := timed_append.mp htimed
  rw [endTime_append] at hnow
  obtain ⟨hwf, hlast⟩ := settled_final (settled_of_created hinit) hbefore side eid l hl
  obtain ⟨l', hl', havailable⟩ :=
    le_available_iff (a := a.toNat) hl hwf hlast hduring hkept hnow
  have hlimiter : limiter = some l' := hl'
  have hdecides := RateLimiter.onLimiter_tryConsume (l := l') hclock a
  rw [hlimiter]
  constructor
  · intro hbudget
    rwa [if_pos (havailable.mpr hbudget)] at hdecides
  · intro hbudget
    rwa [if_neg (mt havailable.mp hbudget)] at hdecides

/-- After the minute of `limitsMinute`, ten seconds are worth 10000. -/
theorem limiter_exact_example :
    let m := Run.final (step .sample) (sample .adapter (.sample 5000000 .default none)) limitsRun
    let limiter := (Run.final (step .sample) m limitsMinute).limiterAt .outbound 30101
    onLimiter limiter (·.tryConsume ⟨100, 0⟩ 10001) = .error (.oft .rateLimitExceeded) ∧
      (onLimiter limiter (·.tryConsume ⟨100, 0⟩ 10000)).isOk := by
  intro m limiter
  have hinit : InitOFT.Created .sample (sample .adapter (.sample 5000000 .default none)) :=
    ⟨.sample, .sample 5000000 .default none, .sample, [], ⟨.adapter, .ofByte 13, 6, none⟩, rfl⟩
  have htimed : Timed 0 (limitsRun ++ limitsMinute) := by
    simp only [limitsRun, limitsMinute, List.cons_append, List.nil_append, Timed, Event.time,
      Event.sample]
    decide
  have hkept : ∀ e ∈ Run.trace (step .sample) m limitsMinute,
      ¬ Reconfigures .sample .outbound 30101 e := by
    intro e he
    simp only [limitsMinute, Run.trace_cons, Run.trace_nil, List.mem_cons, List.not_mem_nil,
      or_false] at he
    rcases he with rfl | rfl <;> · rintro ⟨_, h, _⟩; contradiction
  have hset : m.limiterAt .outbound 30101 = some ⟨3000000, 1500000, 1000, 20⟩ := by
    decide +kernel
  have htaken : ((Run.trace (step .sample) m limitsMinute).map
      (taken .sample .outbound 30101)).sum = 1570000 := by decide +kernel
  have hgiven : ((Run.trace (step .sample) m limitsMinute).map
      (given .sample .outbound 30101)).sum = 0 := by decide +kernel
  have hexact := limiter_exact .sample _ hinit limitsRun limitsMinute htimed .outbound 30101
    ⟨3000000, 1500000, 1000, 20⟩ ⟨100, 0⟩ 100 10001 hset hkept (by decide +kernel) (by decide)
  refine ⟨hexact.2 fun hbudget => ?_, by decide +kernel⟩
  have hstored := hbudget.stored
  rw [htaken, hgiven] at hstored
  revert hstored
  decide

end Node

end CrossChain
