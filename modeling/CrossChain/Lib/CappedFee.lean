import Mathlib.Algebra.Order.Floor.Div
import Mathlib.Order.GaloisConnection.Basic

/-!
# CrossChain.Lib.CappedFee

Proportional fees with a cap, on natural numbers: out of an amount `a` a fee
of `a * p / B`, rounded up and at most `m`, is withheld.

* `charge` is the fee and `net` what is left of `a`;
* `gross` is the gross-up: the least amount that leaves `x`.

`gross` and `net` form a Galois connection (`gross_le_iff`), and since `net`
starts at `0` and never jumps by more than one, the gross-up is exact:
`net_gross`.  Both rounding rules and the cap enter only through
`net_eq_max`; everything after it is order theory.

The last section is about rounding an amount down to a multiple (`floorTo`).
-/

namespace CappedFee

/-! ## lower adjoints of slow functions are exact -/

/-- A lower adjoint of a function that starts at `0` and grows by at most
one per step is a right inverse of it: the least `z` with `x ≤ f z` has
`f z = x`. -/
theorem eq_of_le_iff {f l : ℕ → ℕ} (hl : ∀ x z, l x ≤ z ↔ x ≤ f z) (h0 : f 0 = 0)
    (hs : ∀ n, f (n + 1) ≤ f n + 1) (x : ℕ) : f (l x) = x := by
  have hge : x ≤ f (l x) := (hl x (l x)).mp le_rfl
  have hle : f (l x) ≤ x := by
    rcases hz : l x with _ | z
    · rw [h0]; exact Nat.zero_le x
    · have hlt : f z < x := by
        by_contra hcon
        have := (hl x z).mpr (Nat.le_of_not_lt hcon)
        omega
      exact (hs z).trans hlt
  exact le_antisymm hle hge

/-! ## the fee and the net amount -/

/-- The fee on `a`: `p` parts in `B`, rounded up, at most `m`. -/
def charge (B p m a : ℕ) : ℕ := min (a * p ⌈/⌉ B) m

/-- What the fee leaves of `a`. -/
def net (B p m a : ℕ) : ℕ := a - charge B p m a

/-- Rounding the fee up is rounding what is left down. -/
theorem sub_ceilDiv {B p : ℕ} (hB : 0 < B) (hp : p ≤ B) (a : ℕ) :
    a - a * p ⌈/⌉ B = a * (B - p) / B := by
  have hsplit : a * p + a * (B - p) = a * B := by
    rw [← Nat.mul_add, Nat.add_sub_cancel' hp]
  have hdm := Nat.div_add_mod (a * (B - p)) B
  have hmod := Nat.mod_lt (a * (B - p)) hB
  have hle : a * (B - p) / B ≤ a :=
    Nat.div_le_of_le_mul (by rw [Nat.mul_comm B a]; exact Nat.mul_le_mul_left a (Nat.sub_le B p))
  have hsub : (a - a * (B - p) / B) * B = a * B - B * (a * (B - p) / B) := by
    rw [Nat.sub_mul, Nat.mul_comm (a * (B - p) / B) B]
  have hceil : a * p ⌈/⌉ B = a - a * (B - p) / B := by
    rw [Nat.ceilDiv_eq_add_pred_div]
    apply Nat.div_eq_of_lt_le
    · omega
    · rw [Nat.add_mul, hsub]
      omega
  rw [hceil, Nat.sub_sub_self hle]

/-- The net amount is the larger of the two fee formulas' results. -/
theorem net_eq_max {B p : ℕ} (hB : 0 < B) (hp : p ≤ B) (m a : ℕ) :
    net B p m a = max (a * (B - p) / B) (a - m) := by
  unfold net charge
  rw [← sub_ceilDiv hB hp a]
  omega

/-- The fee never exceeds the amount. -/
theorem charge_le {B p : ℕ} (hB : 0 < B) (hp : p ≤ B) (m a : ℕ) : charge B p m a ≤ a := by
  have hceil : a * p ⌈/⌉ B ≤ a := by
    rw [ceilDiv_le_iff_le_mul hB, Nat.mul_comm]
    exact Nat.mul_le_mul_right a hp
  exact (min_le_left _ _).trans hceil

theorem net_add_charge {B p : ℕ} (hB : 0 < B) (hp : p ≤ B) (m a : ℕ) :
    net B p m a + charge B p m a = a := Nat.sub_add_cancel (charge_le hB hp m a)

@[simp] theorem net_zero (B p m : ℕ) : net B p m 0 = 0 := by simp [net]

/-- A share of at most the whole grows by at most one with each unit. -/
theorem succ_mul_div_le {B p : ℕ} (hB : 0 < B) (hp : p ≤ B) (a : ℕ) :
    (a + 1) * p / B ≤ a * p / B + 1 := by
  rw [Nat.add_mul, Nat.one_mul, ← Nat.add_div_right _ hB]
  exact Nat.div_le_div_right (by omega)

/-- One more unit in leaves at most one more unit. -/
theorem net_succ_le {B p : ℕ} (hB : 0 < B) (hp : p ≤ B) (m a : ℕ) :
    net B p m (a + 1) ≤ net B p m a + 1 := by
  rw [net_eq_max hB hp, net_eq_max hB hp]
  have hdiv := succ_mul_div_le hB (Nat.sub_le B p) a
  omega

/-! ## the gross-up -/

/-- The least amount that leaves `x` after the fee. -/
def gross (B p m x : ℕ) : ℕ :=
  if p = 0 ∨ x = 0 then x
  else if p = B then x + m
  else min (x * B ⌈/⌉ (B - p)) (x + m)

/-- The uncapped quotient is no less than the amount it leaves. -/
theorem le_mul_ceilDiv {B p : ℕ} (hp : p < B) (x : ℕ) : x ≤ x * B ⌈/⌉ (B - p) := by
  have hd : 0 < B - p := by omega
  have hle := (ceilDiv_le_iff_le_mul hd).mp (le_refl (x * B ⌈/⌉ (B - p)))
  have hmul : x * B ≤ (x * B ⌈/⌉ (B - p)) * B := by
    rw [Nat.mul_comm (x * B ⌈/⌉ (B - p))]
    exact hle.trans (Nat.mul_le_mul_right _ (Nat.sub_le B p))
  exact Nat.le_of_mul_le_mul_right hmul (by omega)

/-- `gross` is the lower adjoint of `net`. -/
theorem gross_le_iff {B p : ℕ} (hB : 0 < B) (hp : p ≤ B) (m x z : ℕ) :
    gross B p m x ≤ z ↔ x ≤ net B p m z := by
  rw [net_eq_max hB hp]
  unfold gross
  split
  · next h =>
    rcases h with rfl | rfl
    · rw [Nat.sub_zero, Nat.mul_div_cancel _ hB]; omega
    · simp
  · next h =>
    have hx : 0 < x := by omega
    have hcap : x + m ≤ z ↔ x ≤ z - m := by omega
    split
    · next hpB =>
      subst hpB
      rw [Nat.sub_self, Nat.mul_zero, Nat.zero_div, hcap]; omega
    · next hpB =>
      have hlt : 0 < B - p := by omega
      rw [min_le_iff, le_max_iff, hcap, ceilDiv_le_iff_le_mul hlt, Nat.mul_comm (B - p) z,
        Nat.le_div_iff_mul_le hB]

/-- The gross-up is exact. -/
theorem net_gross {B p : ℕ} (hB : 0 < B) (hp : p ≤ B) (m x : ℕ) :
    net B p m (gross B p m x) = x :=
  eq_of_le_iff (gross_le_iff hB hp m) (net_zero B p m) (net_succ_le hB hp m) x

/-! ## rounding down to a multiple -/

/-- `a` rounded down to a multiple of `r`. -/
def floorTo (r a : ℕ) : ℕ := a - a % r

theorem floorTo_eq (r a : ℕ) : floorTo r a = r * (a / r) := by
  unfold floorTo
  have := Nat.div_add_mod a r
  omega

theorem dvd_floorTo (r a : ℕ) : r ∣ floorTo r a := ⟨a / r, floorTo_eq r a⟩

theorem floorTo_le (r a : ℕ) : floorTo r a ≤ a := Nat.sub_le a _

theorem floorTo_of_dvd {r a : ℕ} (h : r ∣ a) : floorTo r a = a := by
  rw [floorTo, Nat.mod_eq_zero_of_dvd h, Nat.sub_zero]

theorem floorTo_mono (r : ℕ) : Monotone (floorTo r) := by
  intro a b hab
  rw [floorTo_eq, floorTo_eq]
  exact Nat.mul_le_mul_left r (Nat.div_le_div_right hab)

end CappedFee
