import Mathlib.Algebra.Ring.Nat

/-!
# CrossChain.Lib.Checked

Fixed-width arithmetic as Rust performs it: the `checked_*` operators of
`u64`, which report an unrepresentable result as `none`, and the
`saturating_*` ones, which clamp it.

Each operator has one specification lemma over `Nat`, so that a proof about
machine integers becomes a proof about natural numbers in one rewrite:

* `checkedAdd_eq_some` — `a.checkedAdd b = some c ↔ a.toNat + b.toNat = c.toNat`,
  and likewise for the other checked operators;
* `toNat_saturatingAdd` / `toNat_saturatingMul` — the exact result, capped.

The second half is the same discipline for `Except`: what a successful
sequence of fallible steps says about each step.
-/

namespace UInt64

/-- The largest `u64`, `2 ^ 64 - 1`. -/
def maxValue : Nat := 2 ^ 64 - 1

theorem toNat_lt_two_pow (a : UInt64) : a.toNat < 2 ^ 64 := a.toNat_lt_size

theorem toNat_le_maxValue (a : UInt64) : a.toNat ≤ maxValue := by
  have := a.toNat_lt_two_pow
  unfold maxValue; omega

/-- A number in range survives the conversion to `u64`. -/
theorem toNat_ofNat_of_lt_two_pow {n : Nat} (h : n < 2 ^ 64) : (UInt64.ofNat n).toNat = n :=
  UInt64.toNat_ofNat_of_lt' h

theorem exists_toNat_eq {n : Nat} (h : n < 2 ^ 64) : ∃ c : UInt64, n = c.toNat :=
  ⟨UInt64.ofNat n, (toNat_ofNat_of_lt_two_pow h).symm⟩

/-! ## checked operators -/

/-- A `Nat` result as a `u64`, when it is one. -/
def ofNat? (n : Nat) : Option UInt64 := if n < 2 ^ 64 then some (UInt64.ofNat n) else none

theorem ofNat?_eq_some {n : Nat} {c : UInt64} : ofNat? n = some c ↔ n = c.toNat := by
  unfold ofNat?
  constructor
  · intro h
    split at h
    · next hlt =>
      rw [← Option.some.inj h, toNat_ofNat_of_lt_two_pow hlt]
    · contradiction
  · rintro rfl
    rw [if_pos c.toNat_lt_two_pow, UInt64.ofNat_toNat]

theorem ofNat?_eq_none {n : Nat} : ofNat? n = none ↔ 2 ^ 64 ≤ n := by
  unfold ofNat?; split <;> simp <;> omega

/-- `u64::checked_add`. -/
def checkedAdd (a b : UInt64) : Option UInt64 := ofNat? (a.toNat + b.toNat)

/-- `u64::checked_sub`. -/
def checkedSub (a b : UInt64) : Option UInt64 :=
  if b.toNat ≤ a.toNat then some (a - b) else none

/-- `u64::checked_mul`. -/
def checkedMul (a b : UInt64) : Option UInt64 := ofNat? (a.toNat * b.toNat)

/-- `u64::checked_div`. -/
def checkedDiv (a b : UInt64) : Option UInt64 := if b.toNat = 0 then none else some (a / b)

/-- `u64::checked_rem`. -/
def checkedRem (a b : UInt64) : Option UInt64 := if b.toNat = 0 then none else some (a % b)

/-- `u64::checked_pow`. -/
def checkedPow (a : UInt64) (k : Nat) : Option UInt64 := ofNat? (a.toNat ^ k)

theorem checkedAdd_eq_some {a b c : UInt64} :
    a.checkedAdd b = some c ↔ a.toNat + b.toNat = c.toNat := ofNat?_eq_some

theorem checkedMul_eq_some {a b c : UInt64} :
    a.checkedMul b = some c ↔ a.toNat * b.toNat = c.toNat := ofNat?_eq_some

theorem checkedPow_eq_some {a c : UInt64} {k : Nat} :
    a.checkedPow k = some c ↔ a.toNat ^ k = c.toNat := ofNat?_eq_some

theorem checkedSub_eq_some {a b c : UInt64} :
    a.checkedSub b = some c ↔ c.toNat + b.toNat = a.toNat := by
  unfold checkedSub
  constructor
  · intro h
    split at h
    · next hle =>
      rw [← Option.some.inj h, UInt64.toNat_sub_of_le _ _ hle]
      omega
    · contradiction
  · intro h
    have hle : b.toNat ≤ a.toNat := by omega
    rw [if_pos hle, Option.some.injEq, ← UInt64.toNat_inj, UInt64.toNat_sub_of_le _ _ hle]
    omega

theorem checkedSub_eq_none {a b : UInt64} : a.checkedSub b = none ↔ a.toNat < b.toNat := by
  unfold checkedSub; split <;> simp <;> omega

theorem checkedDiv_eq_some {a b c : UInt64} :
    a.checkedDiv b = some c ↔ b.toNat ≠ 0 ∧ a.toNat / b.toNat = c.toNat := by
  unfold checkedDiv
  split
  · next h => simp [h]
  · next h => simp [h, ← UInt64.toNat_inj]

theorem checkedRem_eq_some {a b c : UInt64} :
    a.checkedRem b = some c ↔ b.toNat ≠ 0 ∧ a.toNat % b.toNat = c.toNat := by
  unfold checkedRem
  split
  · next h => simp [h]
  · next h => simp [h, ← UInt64.toNat_inj]

/-! ## saturating operators -/

/-- `u64::saturating_add`. -/
def saturatingAdd (a b : UInt64) : UInt64 := UInt64.ofNat (min maxValue (a.toNat + b.toNat))

/-- `u64::saturating_mul`. -/
def saturatingMul (a b : UInt64) : UInt64 := UInt64.ofNat (min maxValue (a.toNat * b.toNat))

private theorem min_maxValue_lt (n : Nat) : min maxValue n < 2 ^ 64 := by
  unfold maxValue; omega

theorem toNat_saturatingAdd (a b : UInt64) :
    (a.saturatingAdd b).toNat = min maxValue (a.toNat + b.toNat) :=
  toNat_ofNat_of_lt_two_pow (min_maxValue_lt _)

theorem toNat_saturatingMul (a b : UInt64) :
    (a.saturatingMul b).toNat = min maxValue (a.toNat * b.toNat) :=
  toNat_ofNat_of_lt_two_pow (min_maxValue_lt _)

/-- `std::cmp::min` on `u64`. -/
def minOf (a b : UInt64) : UInt64 := if a.toNat ≤ b.toNat then a else b

theorem toNat_minOf (a b : UInt64) : (a.minOf b).toNat = min a.toNat b.toNat := by
  unfold minOf; split <;> omega

end UInt64

/-! ## `uint32` -/

namespace UInt32

/-- Solidity's `a + b` on `uint32`, which reverts where it would wrap. -/
def checkedAdd (a b : UInt32) : Option UInt32 :=
  if a.toNat + b.toNat < 2 ^ 32 then some (a + b) else none

theorem checkedAdd_eq_some {a b c : UInt32} :
    a.checkedAdd b = some c ↔ a.toNat + b.toNat = c.toNat := by
  unfold checkedAdd
  have hc : c.toNat < 2 ^ 32 := c.toNat_lt_size
  split
  · next h => rw [Option.some.injEq, ← UInt32.toNat_inj, UInt32.toNat_add, Nat.mod_eq_of_lt h]
  · next h => exact ⟨nofun, fun hsum => absurd (hsum ▸ hc) h⟩

end UInt32

/-! ## `u128`

Intermediate results that need the wider type; `Nat` with the type's bound
checked. -/

namespace U128

/-- `u128::checked_add`. -/
def checkedAdd (a b : Nat) : Option Nat := if a + b < 2 ^ 128 then some (a + b) else none

/-- `u128::checked_sub`. -/
def checkedSub (a b : Nat) : Option Nat := if b ≤ a then some (a - b) else none

/-- `u128::checked_mul`. -/
def checkedMul (a b : Nat) : Option Nat := if a * b < 2 ^ 128 then some (a * b) else none

/-- `u128::checked_div`. -/
def checkedDiv (a b : Nat) : Option Nat := if b = 0 then none else some (a / b)

theorem checkedAdd_of_lt {a b : Nat} (h : a + b < 2 ^ 128) : checkedAdd a b = some (a + b) :=
  if_pos h

theorem checkedSub_of_le {a b : Nat} (h : b ≤ a) : checkedSub a b = some (a - b) := if_pos h

theorem checkedMul_of_lt {a b : Nat} (h : a * b < 2 ^ 128) : checkedMul a b = some (a * b) :=
  if_pos h

theorem checkedDiv_of_ne {a b : Nat} (h : b ≠ 0) : checkedDiv a b = some (a / b) := if_neg h

end U128

/-! ## sequences of fallible steps -/

namespace Option

variable {α β γ δ : Type}

/-- Related `do` blocks: their first steps are related, and so is what follows
on related values. -/
theorem Rel.bind {r : α → β → Prop} {q : γ → δ → Prop} {x : Option α} {y : Option β}
    {f : α → Option γ} {g : β → Option δ} (h : Rel r x y)
    (hf : ∀ a b, x = .some a → y = .some b → r a b → Rel q (f a) (g b)) :
    Rel q (x >>= f) (y >>= g) := by
  cases h with
  | none => exact .none
  | some hab => exact hf _ _ rfl rfl hab

theorem Rel.map_left {r : γ → β → Prop} {f : α → γ} {x : Option α} {y : Option β}
    (h : Rel (fun a b => r (f a) b) x y) : Rel r (x.map f) y := by
  cases h with
  | none => exact .none
  | some hab => exact .some hab

theorem Rel.isSome_eq {r : α → β → Prop} {x : Option α} {y : Option β} (h : Rel r x y) :
    x.isSome = y.isSome := by
  cases h <;> rfl

/-- What a failure leaves as it was is related if it was. -/
theorem Rel.getD {r : α → β → Prop} {x : Option α} {y : Option β} (h : Rel r x y) {a : α} {b : β}
    (hab : r a b) : r (x.getD a) (y.getD b) := by
  cases h with
  | none => exact hab
  | some hxy => exact hxy

end Option

namespace Except

variable {ε α β : Type}

/-- A successful `do` block had a successful first step. -/
theorem bind_eq_ok {x : Except ε α} {f : α → Except ε β} {b : β} :
    (x >>= f) = .ok b ↔ ∃ a, x = .ok a ∧ f a = .ok b := by
  constructor
  · intro h
    match x, h with
    | .ok a, h => exact ⟨a, rfl, h⟩
  · rintro ⟨a, rfl, h⟩
    exact h

theorem pure_eq_ok {a b : α} : (pure a : Except ε α) = .ok b ↔ a = b :=
  ⟨Except.ok.inj, congrArg Except.ok⟩

/-- A step followed by nothing that can fail failed itself. -/
theorem error_of_bind_pure {x : Except ε α} {f : α → β} {e : ε}
    (h : (do let a ← x; pure (f a)) = (.error e : Except ε β)) : ∃ e', x = .error e' :=
  match x, h with
  | .error e', _ => ⟨e', rfl⟩

/-- A computation that was run and found to succeed has a result. -/
theorem exists_eq_ok_of_isOk {x : Except ε α} (h : x.isOk = true) : ∃ a, x = .ok a :=
  match x, h with
  | .ok a, _ => ⟨a, rfl⟩

/-- Succeeding, as an existence. -/
theorem isOk_iff {x : Except ε α} : x.isOk = true ↔ ∃ a, x = .ok a := by
  constructor
  · exact exists_eq_ok_of_isOk
  · rintro ⟨a, rfl⟩
    rfl

/-- A `do` block succeeds when its first step does, and what follows does on
its value. -/
theorem isOk_bind {x : Except ε α} {f : α → Except ε β} :
    (x >>= f).isOk = true ↔ ∃ a, x = .ok a ∧ (f a).isOk = true := by
  simp only [isOk_iff, bind_eq_ok]
  constructor
  · rintro ⟨b, a, hx, hf⟩
    exact ⟨a, hx, b, hf⟩
  · rintro ⟨a, hx, b, hf⟩
    exact ⟨b, a, hx, hf⟩

/-- Rust's `ok_or`: an absent value becomes the error `e`. -/
def okOr (x : Option α) (e : ε) : Except ε α :=
  match x with
  | some a => .ok a
  | none => .error e

theorem okOr_eq_ok {x : Option α} {e : ε} {a : α} : okOr x e = .ok a ↔ x = some a := by
  cases x <;> simp [okOr]

/-- `require!`: go on when `p` holds, fail with `e` otherwise. -/
def require (p : Prop) [Decidable p] (e : ε) : Except ε Unit := if p then .ok () else .error e

theorem require_eq_ok {p : Prop} [Decidable p] {e : ε} {u : Unit} :
    require p e = .ok u ↔ p := by
  unfold require; split <;> simp [*]

/-- Two computations that fail alike, or succeed with related results. -/
inductive Rel (r : α → β → Prop) : Except ε α → Except ε β → Prop
  | ok {a : α} {b : β} (h : r a b) : Rel r (.ok a) (.ok b)
  | error (e : ε) : Rel r (.error e) (.error e)

theorem Rel.refl (x : Except ε α) : Rel Eq x x := by
  cases x with
  | ok a => exact .ok rfl
  | error e => exact .error e

/-- Related `do` blocks: their first steps are related, and so is what follows
on related values. -/
theorem Rel.bind {γ δ : Type} {r : α → β → Prop} {q : γ → δ → Prop} {x : Except ε α}
    {y : Except ε β} {f : α → Except ε γ} {g : β → Except ε δ} (h : Rel r x y)
    (hf : ∀ a b, r a b → Rel q (f a) (g b)) : Rel q (x >>= f) (y >>= g) := by
  cases h with
  | ok hab => exact hf _ _ hab
  | error e => exact .error e

/-- A first step that both blocks share. -/
theorem Rel.bind_left {γ δ : Type} {q : γ → δ → Prop} (x : Except ε α) {f : α → Except ε γ}
    {g : α → Except ε δ} (hf : ∀ a, Rel q (f a) (g a)) : Rel q (x >>= f) (x >>= g) := by
  refine (Rel.refl x).bind fun a b hab => ?_
  subst hab
  exact hf a

/-- Related computations succeed together, and fail with the same error. -/
theorem Rel.map_eq {γ : Type} {r : α → β → Prop} {x : Except ε α} {y : Except ε β}
    (h : Rel r x y) (c : γ) : (x.map fun _ => c) = y.map fun _ => c := by
  cases h <;> rfl

end Except
