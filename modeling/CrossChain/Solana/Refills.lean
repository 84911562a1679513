import Mathlib.Algebra.Order.Ring.Int
import CrossChain.Lib.Climb
import CrossChain.Lib.Run
import CrossChain.Solana.RateLimiter

/-!
# CrossChain.Solana.Refills

What a limiter gains from refills at clock readings in any order.

`refill` credits no time when the clock is not after `last_refill_time`, but
it moves `last_refill_time` back to the clock all the same.  So the seconds
it credits over a sequence of readings are all the steps of the clock
upwards (`gained_eq`), those between two readings again each time the clock
comes back over them.
-/

namespace CrossChain

namespace RateLimiter

/-- `refill(0)`.  At a clock it cannot read it aborts and changes nothing. -/
def poll (l : RateLimiter) (clock : Clock) : RateLimiter := (l.refill clock 0).2

/-- The tokens a call adds; none when it cuts an overfull balance down to the
capacity. -/
def added (e : RateLimiter × Clock) : ℕ := (e.1.poll e.2).tokens.toNat - e.1.tokens.toNat

/-- The tokens gained over a sequence of calls. -/
def gained (l : RateLimiter) (clocks : List Clock) : ℕ :=
  ((Run.trace poll l clocks).map added).sum

/-- The tokens that there is room for. -/
def room (l : RateLimiter) : ℕ := l.capacity.toNat - l.tokens.toNat

/-- The latest of `t₀` and the readings of the clock. -/
def latest (t₀ : ℤ) (clocks : List Clock) : ℤ :=
  Climb.peak t₀ (clocks.map (·.unixTimestamp.toInt))

/-- The readings that are a `u64`; at any other the call aborts. -/
def readings (clocks : List Clock) : List ℤ :=
  (clocks.map (·.unixTimestamp.toInt)).filter (0 ≤ ·)

/-! ## one call -/

/-- A call at a negative reading changes nothing, and one at any other
settles the limiter there. -/
theorem poll_cases (l : RateLimiter) (clock : Clock) :
    (clock.unixTimestamp.toInt < 0 ∧ l.poll clock = l) ∨
      ∃ now : UInt64, clock.unixTimestamp.toInt = now.toNat ∧ l.poll clock = l.refillAt now 0 := by
  cases hclock : clock.currentTime with
  | ok now =>
      refine .inr ⟨now, Clock.currentTime_eq_ok.mp hclock, ?_⟩
      rw [poll, refill_eq hclock]
  | error e =>
      refine .inl ⟨?_, by rw [poll, refill, hclock]⟩
      by_contra hnonneg
      rw [Clock.currentTime, if_pos (not_lt.mp hnonneg)] at hclock
      contradiction

/-- What is settled at a reading is a step of the clock upwards. -/
theorem unsettled_cast (l : RateLimiter) (now : UInt64) :
    (l.unsettled now : ℤ) = max ((now.toNat : ℤ) - l.lastRefillTime.toNat) 0 := by
  unfold unsettled
  omega

/-- A call adds what it settles, as far as there is room. -/
theorem added_refillAt (l : RateLimiter) (now : UInt64) :
    (l.refillAt now 0).tokens.toNat - l.tokens.toNat =
      min l.room (l.unsettled now * l.refillPerSecond.toNat) := by
  rw [toNat_tokens_poll, available, room]
  omega

theorem room_refillAt (l : RateLimiter) (now : UInt64) :
    (l.refillAt now 0).room = l.room - l.unsettled now * l.refillPerSecond.toNat := by
  have hcapacity : (l.refillAt now 0).capacity = l.capacity := rfl
  rw [room, hcapacity, toNat_tokens_poll, available, room]
  omega

/-! ## a sequence of calls -/

theorem readings_cons_neg {clock : Clock} (h : clock.unixTimestamp.toInt < 0)
    (clocks : List Clock) : readings (clock :: clocks) = readings clocks := by
  simp [readings, h]

theorem readings_cons {clock : Clock} {now : UInt64} (h : clock.unixTimestamp.toInt = now.toNat)
    (clocks : List Clock) : readings (clock :: clocks) = (now.toNat : ℤ) :: readings clocks := by
  simp [readings, h]

/-- Readings that are no `u64` are never the latest. -/
theorem latest_eq (t₀ : ℕ) (clocks : List Clock) :
    latest t₀ clocks = Climb.peak (t₀ : ℤ) (readings clocks) := by
  refine (Climb.peak_filter (fun t ht => ?_) _).symm
  rw [decide_eq_false_iff_not] at ht
  omega

theorem gained_cons (l : RateLimiter) (clock : Clock) (clocks : List Clock) :
    l.gained (clock :: clocks) = added (l, clock) + (l.poll clock).gained clocks := by
  simp [gained]

/-- A sequence of calls credits every step of the clock upwards, as far as
there is room. -/
theorem gained_eq (l : RateLimiter) (clocks : List Clock) :
    (l.gained clocks : ℤ) = min (l.room : ℤ)
      (l.refillPerSecond.toNat * Climb.total (l.lastRefillTime.toNat : ℤ) (readings clocks)) := by
  induction clocks generalizing l with
  | nil => simp [gained, readings]
  | cons clock clocks ih =>
      rw [gained_cons, added]
      rcases l.poll_cases clock with ⟨hneg, hpoll⟩ | ⟨now, hnow, hpoll⟩
      · rw [hpoll, readings_cons_neg hneg, Nat.sub_self, Nat.zero_add]
        exact ih l
      · have htail := ih (l.refillAt now 0)
        rw [room_refillAt] at htail
        have hlast : (l.refillAt now 0).lastRefillTime = now := rfl
        have hrate : (l.refillAt now 0).refillPerSecond = l.refillPerSecond := rfl
        rw [hlast, hrate] at htail
        have hcredit : (l.refillPerSecond.toNat : ℤ) * l.unsettled now =
            (l.unsettled now * l.refillPerSecond.toNat : ℕ) := by
          rw [Nat.cast_mul, mul_comm]
        have hrest : (0 : ℤ) ≤ l.refillPerSecond.toNat *
            Climb.total (now.toNat : ℤ) (readings clocks) :=
          mul_nonneg (by omega) (Climb.total_nonneg _ _)
        rw [hpoll, added_refillAt, readings_cons hnow, Climb.total_cons, ← unsettled_cast,
          mul_add, hcredit, Nat.cast_add, htail]
        omega

/-- The steps upwards bring no more than the time up to the latest reading
when nothing brings anything, or they add up to that time. -/
theorem credits_le_iff (r : ℕ) (t₀ : ℤ) (ts : List ℤ) :
    r * Climb.total t₀ ts ≤ r * (Climb.peak t₀ ts - t₀) ↔ r = 0 ∨ Climb.FromPeak t₀ t₀ ts := by
  rw [← Climb.peak_sub_eq_total le_rfl]
  have hle := Climb.peak_sub_le_total (le_refl t₀) ts
  constructor
  · intro h
    rcases Nat.eq_zero_or_pos r with hzero | hpos
    · exact .inl hzero
    · exact .inr (le_antisymm hle (Int.le_of_mul_le_mul_left h (by omega)))
  · rintro (rfl | heq)
    · simp
    · rw [heq]

/-- No second up to the latest reading brings tokens twice, just when the
rate is zero, or those seconds fill the limiter anyway, or the clock only
ever goes up from its latest reading. -/
theorem gained_le_iff (l : RateLimiter) (clocks : List Clock) :
    (l.gained clocks : ℤ) ≤ l.refillPerSecond.toNat *
        (latest l.lastRefillTime.toNat clocks - l.lastRefillTime.toNat) ↔
      l.refillPerSecond = 0 ∨
      (l.room : ℤ) ≤ l.refillPerSecond.toNat *
        (latest l.lastRefillTime.toNat clocks - l.lastRefillTime.toNat) ∨
      Climb.FromPeak (l.lastRefillTime.toNat : ℤ) l.lastRefillTime.toNat (readings clocks) := by
  have hrate : l.refillPerSecond = 0 ↔ l.refillPerSecond.toNat = 0 := by
    rw [← UInt64.toNat_inj, UInt64.toNat_zero]
  rw [gained_eq, latest_eq, min_le_iff, credits_le_iff, ← hrate, or_left_comm]

/-- A clock that steps back from 10 to 5 and then on to 10 is credited five
seconds that `last_refill_time` had already settled. -/
theorem gained_twice :
    ¬ ∀ (l : RateLimiter) (clocks : List Clock),
      (l.gained clocks : ℤ) ≤ l.refillPerSecond.toNat *
        (latest l.lastRefillTime.toNat clocks - l.lastRefillTime.toNat) := by
  intro hclaim
  have hfive := hclaim ⟨1000, 0, 1, 10⟩ [⟨5, 0⟩, ⟨10, 0⟩]
  revert hfive
  decide

end RateLimiter

end CrossChain
