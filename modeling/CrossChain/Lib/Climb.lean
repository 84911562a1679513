import Mathlib.Algebra.Order.Group.MinMax
import Mathlib.Data.List.Chain

/-!
# CrossChain.Lib.Climb

How far a path climbs, against how high it gets.

A path is a starting point and the list of points after it, in any ordered
group.  `total` adds up its steps upwards, and `peak` is the highest point it
visits.  A path climbs at least from its start to its peak
(`peak_sub_le_total`), and no further just when it never climbs back what it
has come down (`peak_sub_eq_total`).
-/

namespace Climb

variable {α : Type} [LinearOrder α]

/-- The highest point of a path that has been as high as `hi`. -/
def peak (hi : α) (ts : List α) : α := ts.foldl max hi

/-- Every step upwards starts from the highest point so far, `hi` at first. -/
def FromPeak (hi last : α) : List α → Prop
  | [] => True
  | t :: ts => (last < t → last = hi) ∧ FromPeak (max hi t) t ts

@[simp] theorem peak_nil (hi : α) : peak hi [] = hi := rfl

@[simp] theorem peak_cons (hi t : α) (ts : List α) :
    peak hi (t :: ts) = peak (max hi t) ts := rfl

instance decidableFromPeak : ∀ (ts : List α) (hi last : α), Decidable (FromPeak hi last ts)
  | [], _, _ => isTrue trivial
  | t :: ts, hi, _ =>
      have := decidableFromPeak ts (max hi t) t
      inferInstanceAs (Decidable (_ ∧ _))

/-- Points below the start make no difference to the peak. -/
theorem peak_filter {p : α → Bool} {hi : α} (h : ∀ t, p t = false → t ≤ hi) (ts : List α) :
    peak hi (ts.filter p) = peak hi ts := by
  induction ts generalizing hi with
  | nil => rfl
  | cons t ts ih =>
      have htail := @ih (max hi t) fun u hu => (h u hu).trans (le_max_left _ _)
      cases hp : p t with
      | true => rw [List.filter_cons_of_pos hp, peak_cons, peak_cons, htail]
      | false =>
          rw [max_eq_left (h t hp)] at htail
          rw [List.filter_cons_of_neg (by simp [hp]), peak_cons, max_eq_left (h t hp), htail]

variable [AddCommGroup α]

/-- The steps upwards of a path, added up. -/
def total (last : α) : List α → α
  | [] => 0
  | t :: ts => max (t - last) 0 + total t ts

@[simp] theorem total_nil (last : α) : total last [] = 0 := rfl

@[simp] theorem total_cons (last t : α) (ts : List α) :
    total last (t :: ts) = max (t - last) 0 + total t ts := rfl

variable [IsOrderedAddMonoid α]

theorem total_nonneg (last : α) (ts : List α) : 0 ≤ total last ts := by
  induction ts generalizing last with
  | nil => exact le_rfl
  | cons t ts ih => exact add_nonneg (le_max_right _ _) (ih t)

/-- One step raises the peak by no more than it climbs. -/
theorem max_sub_le_step {last hi : α} (h : last ≤ hi) (t : α) :
    max hi t - hi ≤ max (t - last) 0 := by
  rw [← max_sub_sub_right, sub_self, max_comm]
  exact max_le_max (sub_le_sub_left h t) le_rfl

/-- It raises the peak by as much when it goes up from the peak, or does not
go up. -/
theorem max_sub_eq_step {last hi : α} (h : last ≤ hi) (t : α) :
    max hi t - hi = max (t - last) 0 ↔ (last < t → last = hi) := by
  constructor
  · intro heq hup
    rw [max_eq_left (sub_nonneg.mpr hup.le)] at heq
    rcases le_total t hi with hbelow | habove
    · rw [max_eq_left hbelow, sub_self, eq_comm, sub_eq_zero] at heq
      exact absurd heq hup.ne'
    · rw [max_eq_right habove] at heq
      exact (sub_right_injective heq).symm
  · intro hpeak
    by_cases hup : last < t
    · rw [← hpeak hup, max_eq_right hup.le, max_eq_left (sub_nonneg.mpr hup.le)]
    · have hdown : t ≤ last := not_lt.mp hup
      rw [max_eq_left (hdown.trans h), sub_self, max_eq_right (sub_nonpos.mpr hdown)]

theorem peak_sub_le_total {last hi : α} (h : last ≤ hi) (ts : List α) :
    peak hi ts - hi ≤ total last ts := by
  induction ts generalizing last hi with
  | nil => rw [peak_nil, sub_self, total_nil]
  | cons t ts ih =>
      have hrest := ih (le_max_right hi t)
      calc
        peak (max hi t) ts - hi = (max hi t - hi) + (peak (max hi t) ts - max hi t) := by
          rw [add_comm, sub_add_sub_cancel]
        _ ≤ max (t - last) 0 + total t ts := add_le_add (max_sub_le_step h t) hrest

/-- A path climbs just from its start to its peak when every step upwards
starts from the highest point so far. -/
theorem peak_sub_eq_total {last hi : α} (h : last ≤ hi) (ts : List α) :
    peak hi ts - hi = total last ts ↔ FromPeak hi last ts := by
  induction ts generalizing last hi with
  | nil => simp [FromPeak]
  | cons t ts ih =>
      have hsplit : peak (max hi t) ts - hi =
          (max hi t - hi) + (peak (max hi t) ts - max hi t) := by
        rw [add_comm, sub_add_sub_cancel]
      have hle := le_max_right hi t
      rw [peak_cons, total_cons, hsplit,
        add_eq_add_iff_eq_and_eq (max_sub_le_step h t) (peak_sub_le_total hle ts),
        max_sub_eq_step h t, ih hle, FromPeak]

/-- Coming down is free; going up again is not, even if only part of the way. -/
example : FromPeak 10 10 [12, 5, 5, 3] ∧ ¬ FromPeak 10 10 [12, 5, 6] := by decide

end Climb
