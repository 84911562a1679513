import CrossChain.Lib.Checked
import Mathlib.Algebra.BigOperators.Group.List.Basic

/-!
# CrossChain.Lib.Exchange

Sequences of fallible steps whose order makes no difference.

Steps exchange when, of any two taken one after the other, the second can as
well come first, and leads to the same state.  A sequence of such steps then
leads to the same state in every order (`Steps.perm`).  A fallible `f` need
not exchange itself: it is enough that an abstraction of its state does,
and that beside it each step of `f` asks for a condition `Q` of its own.
Where the steps of the abstraction lead somewhere, `f` succeeds exactly when
`Q` is met on the way (`isOk_foldlM_iff`).
-/

namespace Exchange

variable {σ τ α ε : Type}

/-- The steps `as` lead from one state to another. -/
inductive Steps (R : τ → α → τ → Prop) : List α → τ → τ → Prop
  | nil (t : τ) : Steps R [] t t
  | cons {a : α} {as : List α} {t t₁ t' : τ} (first : R t a t₁) (rest : Steps R as t₁ t') :
      Steps R (a :: as) t t'

namespace Steps

variable {R : τ → α → τ → Prop}

theorem perm (hswap : ∀ t a b t₁ t₂, R t a t₁ → R t₁ b t₂ → ∃ t₁', R t b t₁' ∧ R t₁' a t₂)
    {as bs : List α} (hperm : as.Perm bs) {t t' : τ} (h : Steps R as t t') : Steps R bs t t' := by
  induction hperm generalizing t with
  | nil => exact h
  | cons a _ ih =>
      cases h with
      | cons first rest => exact .cons first (ih rest)
  | swap a b l =>
      cases h with
      | cons hb rest =>
          cases rest with
          | cons ha rest =>
              obtain ⟨t₁', ha', hb'⟩ := hswap _ _ _ _ _ hb ha
              exact .cons ha' (.cons hb' rest)
  | trans _ _ ih₁ ih₂ => exact ih₂ (ih₁ h)

theorem unique (hR : ∀ t a t₁ t₂, R t a t₁ → R t a t₂ → t₁ = t₂) {as : List α} {t t' t'' : τ}
    (h : Steps R as t t') (h' : Steps R as t t'') : t' = t'' := by
  induction h with
  | nil => cases h'; rfl
  | cons first _ ih =>
      cases h' with
      | cons first' rest' =>
          rw [hR _ _ _ _ first' first] at rest'
          exact ih rest'

end Steps

/-! ## folds -/

variable {f : σ → α → Except ε σ} {R : τ → α → τ → Prop} {abs : σ → τ} {I : σ → Prop} {P : α → Prop}

/-- A sequence succeeds when its first step does, and the rest from there. -/
theorem foldlM_cons_eq_ok {a : α} {as : List α} {s s' : σ} :
    (a :: as).foldlM f s = .ok s' ↔ ∃ s₁, f s a = .ok s₁ ∧ as.foldlM f s₁ = .ok s' := by
  rw [List.foldlM_cons, Except.bind_eq_ok]

/-- A fold takes the steps of its abstraction, and keeps what each step
keeps. -/
theorem steps_of_foldlM
    (hstep : ∀ s a s', I s → P a → f s a = .ok s' → I s' ∧ R (abs s) a (abs s'))
    {as : List α} (has : ∀ a ∈ as, P a) {s s' : σ} (hs : I s) (h : as.foldlM f s = .ok s') :
    I s' ∧ Steps R as (abs s) (abs s') := by
  induction as generalizing s with
  | nil =>
      obtain rfl := Except.ok.inj h
      exact ⟨hs, .nil _⟩
  | cons a as ih =>
      obtain ⟨hPa, has⟩ := List.forall_mem_cons.mp has
      obtain ⟨s₁, hfirst, hrest⟩ := foldlM_cons_eq_ok.mp h
      obtain ⟨hs₁, hR⟩ := hstep s a s₁ hs hPa hfirst
      obtain ⟨hs', hsteps⟩ := ih has hs₁ hrest
      exact ⟨hs', .cons hR hsteps⟩

/-- Every step of a fold that succeeds does so in some state. -/
theorem forall_of_foldlM
    (hstep : ∀ s a s', I s → P a → f s a = .ok s' → I s' ∧ R (abs s) a (abs s'))
    {as : List α} (has : ∀ a ∈ as, P a) {s s' : σ} (hs : I s) (h : as.foldlM f s = .ok s') :
    ∀ a ∈ as, ∃ s, I s ∧ (f s a).isOk := by
  induction as generalizing s with
  | nil => simp
  | cons a as ih =>
      obtain ⟨hPa, has⟩ := List.forall_mem_cons.mp has
      obtain ⟨s₁, hfirst, hrest⟩ := foldlM_cons_eq_ok.mp h
      have hs₁ := (hstep s a s₁ hs hPa hfirst).1
      exact List.forall_mem_cons.mpr
        ⟨⟨s, hs, Except.isOk_iff.mpr ⟨s₁, hfirst⟩⟩, ih has hs₁ hrest⟩

/-- A fold adds up what each step adds. -/
theorem sum_of_foldlM {M : Type} [AddCommMonoid M] {q : σ → M} {g : α → M}
    (hstep : ∀ s a s', I s → P a → f s a = .ok s' → I s' ∧ q s' = q s + g a)
    {as : List α} (has : ∀ a ∈ as, P a) {s s' : σ} (hs : I s) (h : as.foldlM f s = .ok s') :
    q s' = q s + (as.map g).sum := by
  induction as generalizing s with
  | nil =>
      obtain rfl := Except.ok.inj h
      rw [List.map_nil, List.sum_nil, add_zero]
  | cons a as ih =>
      obtain ⟨hPa, has⟩ := List.forall_mem_cons.mp has
      obtain ⟨s₁, hfirst, hrest⟩ := foldlM_cons_eq_ok.mp h
      obtain ⟨hs₁, hq⟩ := hstep s a s₁ hs hPa hfirst
      rw [ih has hs₁ hrest, hq, List.map_cons, List.sum_cons, add_assoc]

/-- In whatever order, a fold adds up to the same. -/
theorem eq_of_foldlM_perm {M : Type} [AddCommMonoid M] {q : σ → M} {g : α → M}
    (hstep : ∀ s a s', I s → P a → f s a = .ok s' → I s' ∧ q s' = q s + g a)
    {as bs : List α} (hperm : as.Perm bs) (has : ∀ a ∈ as, P a) {s s' s'' : σ} (hs : I s)
    (h : as.foldlM f s = .ok s') (h' : bs.foldlM f s = .ok s'') : q s' = q s'' := by
  have hbs : ∀ b ∈ bs, P b := fun b hb => has b (hperm.mem_iff.mpr hb)
  rw [sum_of_foldlM hstep has hs h, sum_of_foldlM hstep hbs hs h', (hperm.map g).sum_eq]

/-- Every step of a fold meets `Q` in the state it is taken in. -/
def Along (f : σ → α → Except ε σ) (Q : σ → α → Prop) (s : σ) (as : List α) : Prop :=
  ∀ before a after m, as = before ++ a :: after → before.foldlM f s = .ok m → Q m a

theorem along_cons {Q : σ → α → Prop} {s : σ} {a : α} {as : List α} :
    Along f Q s (a :: as) ↔ Q s a ∧ ∀ s₁, f s a = .ok s₁ → Along f Q s₁ as := by
  constructor
  · intro h
    refine ⟨h [] a as s rfl rfl, fun s₁ hs₁ before b after m has hm => ?_⟩
    exact h (a :: before) b after m (by rw [has]; rfl) (foldlM_cons_eq_ok.mpr ⟨s₁, hs₁, hm⟩)
  · rintro ⟨hfirst, hrest⟩ before b after m hsplit hm
    cases before with
    | nil =>
        obtain ⟨rfl, rfl⟩ := List.cons.inj hsplit
        obtain rfl := Except.ok.inj hm
        exact hfirst
    | cons c before =>
        obtain ⟨rfl, htail⟩ := List.cons.inj hsplit
        obtain ⟨s₁, hs₁, hm⟩ := foldlM_cons_eq_ok.mp hm
        exact hrest s₁ hs₁ before b after m htail hm

/-- Where the abstraction has its steps, a fold succeeds when the condition
of each step is met as it comes, and only then. -/
theorem isOk_foldlM_iff {Q : σ → α → Prop} (hR : ∀ t a t₁ t₂, R t a t₁ → R t a t₂ → t₁ = t₂)
    (hstep : ∀ s a s', I s → P a → f s a = .ok s' → I s' ∧ R (abs s) a (abs s'))
    (hok : ∀ s a t, I s → P a → R (abs s) a t → ((f s a).isOk ↔ Q s a))
    {as : List α} (has : ∀ a ∈ as, P a) {s : σ} {t : τ} (hs : I s) (h : Steps R as (abs s) t) :
    (as.foldlM f s).isOk ↔ Along f Q s as := by
  induction as generalizing s with
  | nil =>
      refine iff_of_true rfl fun before a after m hnil => ?_
      simp at hnil
  | cons a as ih =>
      obtain ⟨hPa, has⟩ := List.forall_mem_cons.mp has
      cases h with
      | cons first rest =>
          have hiff := hok s a _ hs hPa first
          have htail : ∀ s₁, f s a = .ok s₁ → ((as.foldlM f s₁).isOk ↔ Along f Q s₁ as) := by
            intro s₁ hs₁
            obtain ⟨hI, hlands⟩ := hstep s a s₁ hs hPa hs₁
            rw [hR _ _ _ _ first hlands] at rest
            exact ih has hI rest
          rw [along_cons, ← hiff, List.foldlM_cons, Except.isOk_bind]
          constructor
          · rintro ⟨s₁, hs₁, hrest⟩
            refine ⟨Except.isOk_iff.mpr ⟨s₁, hs₁⟩, fun s₂ hs₂ => ?_⟩
            obtain rfl := Except.ok.inj (hs₁.symm.trans hs₂)
            exact (htail s₁ hs₁).mp hrest
          · rintro ⟨hfirst, hrest⟩
            obtain ⟨s₁, hs₁⟩ := Except.isOk_iff.mp hfirst
            exact ⟨s₁, hs₁, (htail s₁ hs₁).mpr (hrest s₁ hs₁)⟩

end Exchange
