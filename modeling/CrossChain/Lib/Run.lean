import Mathlib.Algebra.BigOperators.Group.List.Basic

/-!
# CrossChain.Lib.Run

Runs of a deterministic machine `step : σ → α → σ`, and the rules a
development needs about them:

* `final_inv` — an invariant kept by every step holds at the end of a run;
* `ledger` — a quantity that every step changes by `gain - loss` has, at the
  end of a run, changed by the total gain less the total loss;
* `ledger_perm` — the same of a bag of things, where a step puts in one at
  most and takes out one at most;
* `final_rel` — two machines that each step leaves related, and that show the
  same at it, are related at the end of a run, and showed the same;
* `final_filter` — the actions that leave a relation alone can be dropped from
  a run, if the others keep it and show the same in related states.

A run is a list of actions.  `trace` lists its steps with the state each
was taken in, which is all the history a statement about a run can need:
the machine being deterministic, the outcome of a step is a function of the
two.
-/

namespace Run

open scoped List

variable {σ α : Type} (step : σ → α → σ)

/-- The state a run ends in. -/
def final : σ → List α → σ := List.foldl step

/-- The steps of a run in order, each with the state it was taken in. -/
def trace : σ → List α → List (σ × α)
  | _, [] => []
  | s, a :: as => (s, a) :: trace (step s a) as

@[simp] theorem final_nil (s : σ) : final step s [] = s := rfl

@[simp] theorem final_cons (s : σ) (a : α) (as : List α) :
    final step s (a :: as) = final step (step s a) as := rfl

@[simp] theorem trace_nil (s : σ) : trace step s [] = [] := rfl

@[simp] theorem trace_cons (s : σ) (a : α) (as : List α) :
    trace step s (a :: as) = (s, a) :: trace step (step s a) as := rfl

theorem final_append (s : σ) (as bs : List α) :
    final step s (as ++ bs) = final step (final step s as) bs := List.foldl_append

theorem trace_append (s : σ) (as bs : List α) :
    trace step s (as ++ bs) = trace step s as ++ trace step (final step s as) bs := by
  induction as generalizing s with
  | nil => rfl
  | cons a as ih => rw [List.cons_append, trace_cons, trace_cons, ih, final_cons, List.cons_append]

theorem map_snd_trace (s : σ) (as : List α) : (trace step s as).map (·.2) = as := by
  induction as generalizing s with
  | nil => rfl
  | cons a as ih => rw [trace_cons, List.map_cons, ih]

/-- Every step of a trace is a step of the run: a prefix of the run leads
to the state it was taken in. -/
theorem mem_trace {s : σ} {as : List α} {e : σ × α} (h : e ∈ trace step s as) :
    ∃ before after, as = before ++ e.2 :: after ∧ e.1 = final step s before := by
  induction as generalizing s with
  | nil => simp at h
  | cons a as ih =>
      rw [trace_cons, List.mem_cons] at h
      cases h with
      | inl he => exact ⟨[], as, by simp [he], by simp [he]⟩
      | inr ht =>
          obtain ⟨before, after, has, hst⟩ := ih ht
          exact ⟨a :: before, after, by simp [has], by simp [hst]⟩

variable {step} {I : σ → Prop} {P : α → Prop}

/-- An invariant every step keeps holds at the end of the run. -/
theorem final_of_step (hstep : ∀ s a, I s → I (step s a)) {s : σ} (hs : I s) (as : List α) :
    I (final step s as) := by
  induction as generalizing s with
  | nil => exact hs
  | cons a as ih => exact ih (hstep s a hs)

/-- The same for the steps that are admissible in the state they are taken
in. -/
theorem final_inv_of_trace {Q : σ × α → Prop} (hstep : ∀ s a, I s → Q (s, a) → I (step s a))
    {s : σ} {as : List α} (hs : I s) (h : ∀ e ∈ trace step s as, Q e) :
    I (final step s as) := by
  induction as generalizing s with
  | nil => exact hs
  | cons a as ih =>
      have ha : Q (s, a) := h (s, a) List.mem_cons_self
      exact ih (hstep s a hs ha) fun e he => h e (List.mem_cons_of_mem _ he)

/-- The same where this depends on the action only. -/
theorem final_inv (hstep : ∀ s a, I s → P a → I (step s a)) {s : σ} {as : List α}
    (hs : I s) (has : ∀ a ∈ as, P a) : I (final step s as) := by
  refine final_inv_of_trace (Q := fun e => P e.2) hstep hs fun e he => ?_
  obtain ⟨before, after, rfl, -⟩ := mem_trace step he
  exact has e.2 (by simp)

/-- Two machines that each step leaves related, and that show the same at
it. -/
theorem final_rel {τ β : Type} {step' : τ → α → τ} {R : σ → τ → Prop} {seen : σ × α → β}
    {seen' : τ × α → β}
    (hstep : ∀ s t a, R s t → P a → R (step s a) (step' t a) ∧ seen (s, a) = seen' (t, a))
    {s : σ} {t : τ} {as : List α} (hst : R s t) (has : ∀ a ∈ as, P a) :
    R (final step s as) (final step' t as) ∧
      (trace step s as).map seen = (trace step' t as).map seen' := by
  induction as generalizing s t with
  | nil => exact ⟨hst, rfl⟩
  | cons a as ih =>
      obtain ⟨hfirst, hrest⟩ := List.forall_mem_cons.mp has
      obtain ⟨hrel, hseen⟩ := hstep s t a hst hfirst
      obtain ⟨hfinal, hmap⟩ := ih hrel hrest
      exact ⟨hfinal, by rw [trace_cons, trace_cons, List.map_cons, List.map_cons, hseen, hmap]⟩

/-- Dropping actions from a run: if a dropped action leaves related states
related, and a kept one does so too and shows the same in both, the run
without the dropped actions ends related to the run with them, and its steps
showed what the kept ones showed there. -/
theorem final_filter {β : Type} {R : σ → σ → Prop} {keep : α → Bool} {seen : σ × α → β}
    (hdrop : ∀ s t a, R s t → keep a = false → R (step s a) t)
    (hkeep : ∀ s t a, R s t → keep a = true →
      R (step s a) (step t a) ∧ seen (s, a) = seen (t, a)) {s t : σ} (hst : R s t) (as : List α) :
    R (final step s as) (final step t (as.filter keep)) ∧
      ((trace step s as).filter fun e => keep e.2).map seen =
        (trace step t (as.filter keep)).map seen := by
  induction as generalizing s t with
  | nil => exact ⟨hst, rfl⟩
  | cons a as ih =>
      rw [final_cons, trace_cons]
      cases ha : keep a with
      | false =>
          rw [List.filter_cons_of_neg (by simp [ha]), List.filter_cons_of_neg (by simp [ha])]
          exact ih (hdrop s t a hst ha)
      | true =>
          obtain ⟨hrel, hseen⟩ := hkeep s t a hst ha
          obtain ⟨hfinal, hmap⟩ := ih hrel
          rw [List.filter_cons_of_pos (by simp [ha]), List.filter_cons_of_pos (by simp [ha]),
            final_cons, trace_cons, List.map_cons, List.map_cons, hseen, hmap]
          exact ⟨hfinal, rfl⟩

/-- The ledger rule: when each step of a run moves `q` up by its gain and
down by its loss, the run moves `q` up by the total gain and down by the
total loss.  Stated with the losses on the left, so that it is true in any
commutative monoid, `Nat` included. -/
theorem ledger {M : Type} [AddCommMonoid M] {q : σ → M} {gain loss : σ × α → M}
    (hinv : ∀ s a, I s → P a → I (step s a))
    (hstep : ∀ s a, I s → P a → q (step s a) + loss (s, a) = q s + gain (s, a))
    {s : σ} {as : List α} (hs : I s) (has : ∀ a ∈ as, P a) :
    q (final step s as) + ((trace step s as).map loss).sum =
      q s + ((trace step s as).map gain).sum := by
  induction as generalizing s with
  | nil => simp
  | cons a as ih =>
      have ha : P a := has a List.mem_cons_self
      have htail := ih (hinv s a hs ha) fun b hb => has b (List.mem_cons_of_mem a hb)
      simp only [final_cons, trace_cons, List.map_cons, List.sum_cons]
      calc
        q (final step (step s a) as) + (loss (s, a) + ((trace step (step s a) as).map loss).sum)
            = loss (s, a) + (q (final step (step s a) as)
                + ((trace step (step s a) as).map loss).sum) := by rw [add_left_comm]
        _ = (q (step s a) + loss (s, a)) + ((trace step (step s a) as).map gain).sum := by
            rw [htail, ← add_assoc, add_comm (loss (s, a))]
        _ = q s + (gain (s, a) + ((trace step (step s a) as).map gain).sum) := by
            rw [hstep s a hs ha, add_assoc]

theorem filterMap_cons_toList {β : Type} (f : σ × α → Option β) (e : σ × α)
    (es : List (σ × α)) : (e :: es).filterMap f = (f e).toList ++ es.filterMap f := by
  cases h : f e with
  | none => rw [List.filterMap_cons_none h]; rfl
  | some b => rw [List.filterMap_cons_some h]; rfl

/-- The ledger rule for a bag: when each step puts its gain in and takes its
loss out, what is in the bag and what was taken out is what was put in. -/
theorem ledger_perm {β : Type} {q : σ → List β} {gain loss : σ × α → Option β}
    (hinv : ∀ s a, I s → I (step s a))
    (hstep : ∀ s a, I s → (q (step s a) ++ (loss (s, a)).toList).Perm
      (q s ++ (gain (s, a)).toList)) {s : σ} (hs : I s) (as : List α) :
    (q (final step s as) ++ (trace step s as).filterMap loss).Perm
      (q s ++ (trace step s as).filterMap gain) := by
  induction as generalizing s with
  | nil => exact .rfl
  | cons a as ih =>
      have htail := ih (hinv s a hs)
      have hhead := hstep s a hs
      rw [final_cons, trace_cons, filterMap_cons_toList, filterMap_cons_toList]
      calc
        q (final step (step s a) as) ++
            ((loss (s, a)).toList ++ (trace step (step s a) as).filterMap loss)
          ~ (loss (s, a)).toList ++
            (q (final step (step s a) as) ++ (trace step (step s a) as).filterMap loss) := by
            rw [← List.append_assoc, ← List.append_assoc]
            exact List.perm_append_comm.append_right _
        _ ~ (loss (s, a)).toList ++
            (q (step s a) ++ (trace step (step s a) as).filterMap gain) := htail.append_left _
        _ ~ (q (step s a) ++ (loss (s, a)).toList) ++
            (trace step (step s a) as).filterMap gain := by
            rw [← List.append_assoc]
            exact List.perm_append_comm.append_right _
        _ ~ q s ++ ((gain (s, a)).toList ++ (trace step (step s a) as).filterMap gain) := by
            rw [← List.append_assoc]
            exact hhead.append_right _

end Run
