import Mathlib.Algebra.BigOperators.Group.List.Basic
import Mathlib.Algebra.Order.Group.MinMax

/-!
# CrossChain.Lib.Reservoir

The level of a reservoir that holds no more than `cap`.

In a step something flows in, what is above `cap` runs over, and something
flows out.  The level after any number of steps is the least of what each
stretch of them leaves: at least `a` is there exactly when `a` and what
flowed out since a step ran over are within `cap` and what flowed in since,
whatever step that is, and `a` and all that flowed out are within the first
level and all that flowed in (`le_level_iff`).
-/

namespace Reservoir

/-- A step: what flows in, and what flows out of what is then there. -/
structure Flow (G : Type) where
  gain : G
  loss : G

variable {G : Type} [AddCommGroup G] [LinearOrder G]

/-- The level after some steps. -/
def level (cap : G) : G → List (Flow G) → G
  | s, [] => s
  | s, e :: es => level cap (min cap (s + e.gain) - e.loss) es

/-- All that flows in. -/
def gain (es : List (Flow G)) : G := (es.map (·.gain)).sum

/-- All that flows out. -/
def loss (es : List (Flow G)) : G := (es.map (·.loss)).sum

/-- From each step on, what flows out leaves `a` of a full reservoir. -/
def Leaves (cap a : G) (es : List (Flow G)) : Prop :=
  ∀ front e back, es = front ++ e :: back → e.loss + loss back + a ≤ cap + gain back

@[simp] theorem level_nil (cap s : G) : level cap s [] = s := rfl

@[simp] theorem level_cons (cap s : G) (e : Flow G) (es : List (Flow G)) :
    level cap s (e :: es) = level cap (min cap (s + e.gain) - e.loss) es := rfl

omit [LinearOrder G] in
@[simp] theorem gain_nil : gain ([] : List (Flow G)) = 0 := rfl

omit [LinearOrder G] in
@[simp] theorem loss_nil : loss ([] : List (Flow G)) = 0 := rfl

omit [LinearOrder G] in
@[simp] theorem gain_cons (e : Flow G) (es : List (Flow G)) : gain (e :: es) = e.gain + gain es :=
  List.sum_cons

omit [LinearOrder G] in
@[simp] theorem loss_cons (e : Flow G) (es : List (Flow G)) : loss (e :: es) = e.loss + loss es :=
  List.sum_cons

omit [LinearOrder G] in
theorem gain_append (es es' : List (Flow G)) : gain (es ++ es') = gain es + gain es' := by
  rw [gain, List.map_append, List.sum_append, gain, gain]

omit [LinearOrder G] in
theorem loss_append (es es' : List (Flow G)) : loss (es ++ es') = loss es + loss es' := by
  rw [loss, List.map_append, List.sum_append, loss, loss]

theorem level_append (cap s : G) (es es' : List (Flow G)) :
    level cap s (es ++ es') = level cap (level cap s es) es' := by
  induction es generalizing s with
  | nil => rfl
  | cons e es ih => exact ih _

/-- The ways to cut a list at an element: at its head, or in its tail. -/
theorem forall_cut_cons {α : Type} {x : α} {xs : List α} {P : List α → α → List α → Prop} :
    (∀ front e back, x :: xs = front ++ e :: back → P front e back) ↔
      P [] x xs ∧ ∀ front e back, xs = front ++ e :: back → P (x :: front) e back := by
  constructor
  · intro h
    refine ⟨h [] x xs rfl, fun front e back hxs => h (x :: front) e back ?_⟩
    rw [hxs, List.cons_append]
  · rintro ⟨hhead, htail⟩ front e back hxs
    cases front with
    | nil =>
        obtain ⟨rfl, rfl⟩ := List.cons.inj hxs
        exact hhead
    | cons y front =>
        obtain ⟨rfl, hrest⟩ := List.cons.inj hxs
        exact htail front e back hrest

theorem leaves_nil (cap a : G) : Leaves cap a [] := by
  intro front e back h
  simp at h

theorem leaves_cons {cap a : G} {e : Flow G} {es : List (Flow G)} :
    Leaves cap a (e :: es) ↔ e.loss + loss es + a ≤ cap + gain es ∧ Leaves cap a es :=
  forall_cut_cons

variable [IsOrderedAddMonoid G]

/-- What is there at the end: what every stretch of the steps leaves. -/
theorem le_level_iff {cap s a : G} {es : List (Flow G)} :
    a ≤ level cap s es ↔ loss es + a ≤ s + gain es ∧ Leaves cap a es := by
  induction es generalizing s with
  | nil => simp [leaves_nil]
  | cons e es ih =>
      have hfull : loss es + a ≤ cap - e.loss + gain es ↔
          e.loss + loss es + a ≤ cap + gain es := by
        rw [sub_add_eq_add_sub, le_sub_iff_add_le', add_assoc]
      have hnot : loss es + a ≤ s + e.gain - e.loss + gain es ↔
          e.loss + loss es + a ≤ s + (e.gain + gain es) := by
        rw [sub_add_eq_add_sub, le_sub_iff_add_le', add_assoc, add_assoc]
      rw [level_cons, ih, ← min_sub_sub_right, ← min_add_add_right, le_min_iff, hfull, hnot,
        leaves_cons, gain_cons, loss_cons]
      constructor
      · rintro ⟨⟨hcap, hstart⟩, hrest⟩
        exact ⟨hstart, hcap, hrest⟩
      · rintro ⟨hstart, hcap, hrest⟩
        exact ⟨⟨hcap, hstart⟩, hrest⟩

end Reservoir
