import Mathlib.Algebra.Ring.Nat
import Mathlib.Order.Monotone.Basic
import Mathlib.Order.Nat
import Mathlib.Data.List.Chain

/-!
# CrossChain.Lib.DecayWindow

A limit on what is in flight, where what is in flight decays with the time.

A slot is charged no more than its limit leaves.  What was in flight decays by

```
decay  =  limit * elapsed / window
```

since the slot was charged last, and is gone when the window has passed.  The
division is a floor, taken anew at each charge, so that more charges never
decay more: between two times, no more is charged than the limit and the
decay of that time (`Path.sum_le`), whatever was in flight before, and if it
was more than the limit.
-/

namespace DecayWindow

/-- What is in flight as of the last charge, and the limit on it. -/
structure Slot where
  inFlight : ℕ
  lastUpdated : ℕ
  limit : ℕ
  window : ℕ

namespace Slot

/-- What decays in the time `elapsed`. -/
def decay (s : Slot) (elapsed : ℕ) : ℕ := s.limit * elapsed / s.window

/-- What is still in flight at time `now`. -/
def inFlightAt (s : Slot) (now : ℕ) : ℕ :=
  if s.window ≤ now - s.lastUpdated then 0 else s.inFlight - s.decay (now - s.lastUpdated)

/-- One call at time `now`, which charges `a` or is not about the slot. -/
inductive Step (s : Slot) (now : ℕ) : ℕ → Slot → Prop where
  | idle : Step s now 0 s
  | charge {a : ℕ} (fits : a ≤ s.limit - s.inFlightAt now) :
      Step s now a { s with inFlight := s.inFlightAt now + a, lastUpdated := now }

/-- The calls of a run: when each was made, and what it charged. -/
inductive Path : Slot → List (ℕ × ℕ) → Slot → Prop where
  | nil (s : Slot) : Path s [] s
  | cons {s s' s'' : Slot} {now a : ℕ} {calls : List (ℕ × ℕ)} (step : s.Step now a s')
      (rest : Path s' calls s'') : Path s ((now, a) :: calls) s''

end Slot

/-- Times from `t₁` to `t₂` that do not go back. -/
def Timed (t₁ t₂ : ℕ) (times : List ℕ) : Prop := List.IsChain (· ≤ ·) (t₁ :: (times ++ [t₂]))

instance (t₁ t₂ : ℕ) (times : List ℕ) : Decidable (Timed t₁ t₂ times) :=
  inferInstanceAs (Decidable (List.IsChain _ _))

theorem timed_cons {t₁ t₂ now : ℕ} {times : List ℕ} :
    Timed t₁ t₂ (now :: times) ↔ t₁ ≤ now ∧ Timed now t₂ times := List.isChain_cons_cons

theorem timed_nil {t₁ t₂ : ℕ} : Timed t₁ t₂ [] ↔ t₁ ≤ t₂ := by simp [Timed]

variable {s s' : Slot}

namespace Slot

theorem Step.limit {now a : ℕ} (h : s.Step now a s') : s'.limit = s.limit := by
  cases h <;> rfl

theorem Step.window {now a : ℕ} (h : s.Step now a s') : s'.window = s.window := by
  cases h <;> rfl

/-! ## the decay -/

theorem decay_mono (s : Slot) : Monotone s.decay :=
  fun _ _ h => Nat.div_le_div_right (Nat.mul_le_mul_left s.limit h)

/-- Two floors are at most the floor of both. -/
theorem decay_add_le (s : Slot) (a b : ℕ) : s.decay a + s.decay b ≤ s.decay (a + b) := by
  rw [decay, decay, decay, Nat.mul_add]
  exact Nat.div_add_div_le_add_div

theorem limit_le_decay (s : Slot) {elapsed : ℕ} (hwindow : 0 < s.window)
    (h : s.window ≤ elapsed) : s.limit ≤ s.decay elapsed := by
  rw [decay, Nat.le_div_iff_mul_le hwindow]
  exact Nat.mul_le_mul_left s.limit h

/-! ## one call -/

/-- Of what the limit admits, no more is gone than the decay. -/
theorem min_le_inFlightAt (s : Slot) (now : ℕ) (hwindow : 0 < s.window) :
    min s.inFlight s.limit ≤ min (s.inFlightAt now) s.limit + s.decay (now - s.lastUpdated) := by
  unfold inFlightAt
  split
  · next hpassed =>
    have hall := s.limit_le_decay hwindow hpassed
    omega
  · omega

/-- A charge is part of what is then in flight, within the limit. -/
theorem add_le_of_fits {now a : ℕ} (h : a ≤ s.limit - s.inFlightAt now) :
    min (s.inFlightAt now) s.limit + a ≤ min (s.inFlightAt now + a) s.limit := by
  omega

/-- What was charged from `t₁` on, as of time `t`: nothing yet, or no more
than is in flight within the limit and has decayed since. -/
inductive Within (s : Slot) (t₁ t : ℕ) : ℕ → Prop where
  | untouched : Within s t₁ t 0
  | touched {total : ℕ} (first : t₁ ≤ s.lastUpdated) (last : s.lastUpdated ≤ t)
      (total_le : total ≤ min s.inFlight s.limit + s.decay (s.lastUpdated - t₁)) :
      Within s t₁ t total

theorem Within.step {t₁ t now total a : ℕ} (h : s.Within t₁ t total) (hstep : s.Step now a s')
    (hwindow : 0 < s.window) (ht₁ : t₁ ≤ t) (hnow : t ≤ now) : s'.Within t₁ now (total + a) := by
  cases hstep with
  | idle =>
      cases h with
      | untouched => exact .untouched
      | touched first last total_le => exact .touched first (last.trans hnow) total_le
  | charge fits =>
      have hcharge := add_le_of_fits fits
      refine .touched (ht₁.trans hnow) le_rfl ?_
      cases h with
      | untouched =>
          have hself : 0 + a ≤ min (s.inFlightAt now + a) s.limit := by omega
          exact hself.trans (Nat.le_add_right _ _)
      | touched first last total_le =>
          have hdecay := s.min_le_inFlightAt now hwindow
          have hfloor := s.decay_add_le (s.lastUpdated - t₁) (now - s.lastUpdated)
          have helapsed : s.lastUpdated - t₁ + (now - s.lastUpdated) = now - t₁ := by omega
          rw [helapsed] at hfloor
          show total + a ≤ min (s.inFlightAt now + a) s.limit + s.decay (now - t₁)
          omega

theorem Within.total_le {t₁ t total : ℕ} (h : s.Within t₁ t total) :
    total ≤ s.limit + s.decay (t - t₁) := by
  cases h with
  | untouched => exact Nat.zero_le _
  | touched first last total_le =>
      have hmono : s.decay (s.lastUpdated - t₁) ≤ s.decay (t - t₁) :=
        s.decay_mono (Nat.sub_le_sub_right last t₁)
      omega

/-! ## a run of calls -/

theorem Path.limit {calls : List (ℕ × ℕ)} (h : s.Path calls s') : s'.limit = s.limit := by
  induction h with
  | nil s => rfl
  | cons step rest ih => exact ih.trans step.limit

theorem Path.window {calls : List (ℕ × ℕ)} (h : s.Path calls s') : s'.window = s.window := by
  induction h with
  | nil s => rfl
  | cons step rest ih => exact ih.trans step.window

theorem Path.within {calls : List (ℕ × ℕ)} (h : s.Path calls s') (hwindow : 0 < s.window)
    {t₁ t t₂ total : ℕ} (ht₁ : t₁ ≤ t) (htimes : Timed t t₂ (calls.map (·.1)))
    (hs : s.Within t₁ t total) : s'.Within t₁ t₂ (total + (calls.map (·.2)).sum) := by
  induction h generalizing t total with
  | nil s => exact hs.step .idle hwindow ht₁ (timed_nil.mp htimes)
  | @cons s s' s'' now a calls step rest ih =>
      obtain ⟨hnow, hrest⟩ := timed_cons.mp htimes
      have hnext := ih (step.window ▸ hwindow) (ht₁.trans hnow) hrest
        (hs.step step hwindow ht₁ hnow)
      rw [List.map_cons, List.sum_cons, ← Nat.add_assoc]
      exact hnext

/-- Between two times no more is charged than the limit, and the limit's share
of the time in windows. -/
theorem Path.sum_le {calls : List (ℕ × ℕ)} (h : s.Path calls s') (hwindow : 0 < s.window)
    {t₁ t₂ : ℕ} (htimes : Timed t₁ t₂ (calls.map (·.1))) :
    (calls.map (·.2)).sum ≤ s.limit + s.decay (t₂ - t₁) := by
  have hwithin := (h.within hwindow le_rfl htimes .untouched).total_le
  rwa [decay, h.limit, h.window, Nat.zero_add] at hwithin

/-- Nothing is charged where the limit is zero. -/
theorem Path.sum_eq_zero {calls : List (ℕ × ℕ)} (h : s.Path calls s') (hlimit : s.limit = 0) :
    (calls.map (·.2)).sum = 0 := by
  induction h with
  | nil s => rfl
  | cons step rest ih =>
      rw [List.map_cons, List.sum_cons, ih (step.limit.trans hlimit)]
      cases step with
      | idle => rfl
      | charge fits => omega

end Slot

end DecayWindow
