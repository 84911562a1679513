import Mathlib.Order.Monotone.Basic
import CrossChain.Lib.CappedFee

/-!
# CrossChain.Lib.Charging

What a transfer charges when it is settled in whole units.

`u a` is what is left of an amount `a` on its way, and `l x` is the least
amount that leaves `x`: a Galois connection that is exact, `u (l x) = x`.  Of
an input only the whole units of what it leaves are kept, so no more than
`sent = l kept` has to be charged for it.  A share of `p` in `B` of what is
kept, in whole units again, is the fee, and the rest is received.

* `sent` is an interior operator (`sent_le`, `sent_mono`, `sent_sent`);
* more in never means less received (`received_mono`), because a fee below
  100% grows by at most one unit when what is kept does (`fee_eq`).
-/

namespace Charging

open CappedFee

variable (l u : ℕ → ℕ) (r B p : ℕ)

/-- The whole units of what is left of `a`. -/
def kept (a : ℕ) : ℕ := floorTo r (u a)

/-- What is charged for an input of `a`. -/
def sent (a : ℕ) : ℕ := l (kept u r a)

/-- The fee out of what is kept. -/
def fee (a : ℕ) : ℕ := floorTo r (kept u r a * p / B)

/-- What is kept, less the fee. -/
def received (a : ℕ) : ℕ := kept u r a - fee u r B p a

variable {l u r B p}

/-! ## the charge -/

theorem kept_le (a : ℕ) : kept u r a ≤ u a := floorTo_le r (u a)

theorem dvd_kept (a : ℕ) : r ∣ kept u r a := dvd_floorTo r (u a)

theorem kept_mono (hu : Monotone u) : Monotone (kept u r) := (floorTo_mono r).comp hu

theorem sent_le (h : GaloisConnection l u) (a : ℕ) : sent l u r a ≤ a := h.l_le (kept_le a)

theorem sent_mono (h : GaloisConnection l u) : Monotone (sent l u r) :=
  h.monotone_l.comp (kept_mono h.monotone_u)

/-- Charging for what was charged keeps the same. -/
theorem kept_sent (hexact : ∀ x, u (l x) = x) (a : ℕ) :
    kept u r (sent l u r a) = kept u r a := by
  rw [kept, sent, hexact, floorTo_of_dvd (dvd_kept a)]

theorem sent_sent (hexact : ∀ x, u (l x) = x) (a : ℕ) :
    sent l u r (sent l u r a) = sent l u r a := congrArg l (kept_sent hexact a)

/-! ## the fee and the rest -/

/-- In whole units, the fee is the share of the units kept. -/
theorem fee_eq (a : ℕ) : fee u r B p a = r * (u a / r * p / B) := by
  rw [fee, floorTo_eq, kept, floorTo_eq]
  rcases Nat.eq_zero_or_pos r with rfl | hr
  · simp
  · rw [Nat.div_div_eq_div_mul, Nat.mul_assoc, Nat.mul_comm B r, Nat.mul_div_mul_left _ _ hr]

theorem received_eq (a : ℕ) : received u r B p a = r * (u a / r - u a / r * p / B) := by
  rw [received, fee_eq, kept, floorTo_eq, ← Nat.mul_sub]

theorem fee_le (hp : p ≤ B) (a : ℕ) : fee u r B p a ≤ kept u r a := by
  refine (floorTo_le r _).trans ?_
  exact Nat.div_le_of_le_mul (by rw [Nat.mul_comm B]; exact Nat.mul_le_mul_left _ hp)

theorem received_add_fee (hp : p ≤ B) (a : ℕ) :
    received u r B p a + fee u r B p a = kept u r a := Nat.sub_add_cancel (fee_le hp a)

theorem fee_mono (hu : Monotone u) : Monotone (fee u r B p) := by
  intro a b hab
  exact floorTo_mono r (Nat.div_le_div_right (Nat.mul_le_mul_right p (kept_mono hu hab)))

/-- What a share leaves never falls. -/
theorem monotone_sub_share (hB : 0 < B) (hp : p ≤ B) : Monotone fun k => k - k * p / B := by
  refine monotone_nat_of_le_succ fun k => ?_
  have hstep := succ_mul_div_le hB hp k
  omega

theorem received_mono (hu : Monotone u) (hB : 0 < B) (hp : p ≤ B) :
    Monotone (received u r B p) := by
  intro a b hab
  rw [received_eq, received_eq]
  exact Nat.mul_le_mul_left r (monotone_sub_share hB hp (Nat.div_le_div_right (hu hab)))

/-- A fee below 100% takes all of nothing only. -/
theorem received_eq_zero_iff (hr : 0 < r) (hp : p < B) (a : ℕ) :
    received u r B p a = 0 ↔ u a < r := by
  rw [received_eq, Nat.mul_eq_zero, or_iff_right (Nat.ne_of_gt hr), Nat.sub_eq_zero_iff_le,
    ← Nat.div_eq_zero_iff_lt hr]
  generalize u a / r = k
  constructor
  · intro h
    by_contra hk
    have hlt : k * p / B < k :=
      Nat.div_lt_of_lt_mul (by
        rw [Nat.mul_comm B]; exact Nat.mul_lt_mul_of_pos_left hp (Nat.pos_of_ne_zero hk))
    omega
  · rintro rfl
    exact Nat.zero_le _

/-- Charging for what was charged changes nothing. -/
theorem fee_sent (hexact : ∀ x, u (l x) = x) (a : ℕ) :
    fee u r B p (sent l u r a) = fee u r B p a := by
  rw [fee, kept_sent hexact, fee]

theorem received_sent (hexact : ∀ x, u (l x) = x) (a : ℕ) :
    received u r B p (sent l u r a) = received u r B p a := by
  rw [received, kept_sent hexact, fee_sent hexact, received]

end Charging
