import Mathlib.Algebra.BigOperators.Group.Finset.Piecewise
import Mathlib.Algebra.BigOperators.Group.Multiset.Basic
import Mathlib.Algebra.BigOperators.Ring.Finset
import Mathlib.Data.Fintype.Basic

/-!
# CrossChain.Lib.ValueNet

Value moving between parties by messages.  Each party has a position, a
message carries a value, and

* a party that sends `v` moves its position up by `v` and puts `v` in
  flight;
* a party that receives takes a value out of flight and moves its position
  down by it.

Whatever the order of steps, the positions sum to what is in flight
(`Reaches.balanced`).  Values are elements of any commutative group: a
position may go either way, and nothing here depends on the size of a
value.

`Books` are the same net where each party counts in units of its own, some
number of them to one unit of value.  As long as the parties move whole units
only, the books are exact and refine the net they stand for (`Step.net`).
-/

/-- The positions of the parties, and the values in flight between them. -/
structure ValueNet (ι V : Type) where
  position : ι → V
  flight : Multiset V

namespace ValueNet

variable {ι V : Type} [DecidableEq ι] [AddCommGroup V]

/-- The net before anything was sent. -/
def empty : ValueNet ι V := ⟨fun _ => 0, 0⟩

/-- Party `i` sends `v`. -/
def send (n : ValueNet ι V) (i : ι) (v : V) : ValueNet ι V :=
  ⟨Function.update n.position i (n.position i + v), v ::ₘ n.flight⟩

/-- Party `i` receives `v`, and `rest` is left in flight. -/
def receive (n : ValueNet ι V) (i : ι) (v : V) (rest : Multiset V) : ValueNet ι V :=
  ⟨Function.update n.position i (n.position i - v), rest⟩

/-- One step of the net. -/
inductive Step : ValueNet ι V → ValueNet ι V → Prop
  | send (n : ValueNet ι V) (i : ι) (v : V) : Step n (n.send i v)
  | receive (n : ValueNet ι V) (i : ι) (v : V) (rest : Multiset V) (h : n.flight = v ::ₘ rest) :
      Step n (n.receive i v rest)
  | stay (n : ValueNet ι V) : Step n n

/-- The net reaches a state in any number of steps. -/
inductive Reaches (n : ValueNet ι V) : ValueNet ι V → Prop
  | refl : Reaches n n
  | tail {n' n'' : ValueNet ι V} : Reaches n n' → Step n' n'' → Reaches n n''

variable [Fintype ι]

/-- The positions sum to what is in flight. -/
def Balanced (n : ValueNet ι V) : Prop := ∑ i, n.position i = n.flight.sum

omit [DecidableEq ι] in
theorem balanced_empty : (empty : ValueNet ι V).Balanced := by
  simp [Balanced, empty]

/-- Moving one position by `v` moves the sum by `v`. -/
theorem sum_update_add (f : ι → V) (i : ι) (v : V) :
    ∑ j, Function.update f i (f i + v) j = ∑ j, f j + v := by
  rw [Finset.sum_update_of_mem (Finset.mem_univ i), add_right_comm,
    Finset.sdiff_singleton_eq_erase, Finset.add_sum_erase _ f (Finset.mem_univ i)]

theorem Step.balanced {n n' : ValueNet ι V} (h : Step n n') (hn : n.Balanced) : n'.Balanced := by
  cases h with
  | send i v =>
      unfold Balanced at *
      simp only [ValueNet.send]
      rw [sum_update_add, hn, Multiset.sum_cons, add_comm]
  | receive i v rest hfl =>
      unfold Balanced at *
      simp only [ValueNet.receive]
      rw [sub_eq_add_neg, sum_update_add, hn, hfl, Multiset.sum_cons, ← sub_eq_add_neg,
        add_sub_cancel_left]
  | stay => exact hn

/-- A balanced net stays balanced, whatever is sent and received in whatever
order. -/
theorem Reaches.balanced {n n' : ValueNet ι V} (h : Reaches n n') (hn : n.Balanced) :
    n'.Balanced := by
  induction h with
  | refl => exact hn
  | tail _ hstep ih => exact hstep.balanced ih

end ValueNet

/-- The stakes of the parties, each in units of its own, `rate` of which make
one unit of value, and the values in flight between them. -/
structure Books (ι : Type) where
  rate : ι → ℤ
  stake : ι → ℤ
  flight : List ℕ

namespace Books

variable {ι : Type} [DecidableEq ι]

/-- Party `i` stakes `δ` units of value more. -/
def move (b : Books ι) (i : ι) (δ : ℤ) (flight : List ℕ) : Books ι :=
  ⟨b.rate, Function.update b.stake i (b.stake i + δ * b.rate i), flight⟩

/-- One step of the books. -/
inductive Step (b : Books ι) : Books ι → Prop
  | send (i : ι) (v : ℕ) : Step b (b.move i v (v :: b.flight))
  | receive (i : ι) (v : ℕ) (rest : List ℕ) (h : b.flight.Perm (v :: rest)) :
      Step b (b.move i (-v) rest)
  | stay : Step b b

theorem step_move_zero (b : Books ι) (i : ι) : Step b (b.move i 0 b.flight) := by
  rw [move, zero_mul, add_zero, Function.update_eq_self]
  exact .stay

/-- Books that differ from `b.move` in nothing come of the same step. -/
theorem Step.of_stake {b b' : Books ι} {i : ι} {δ : ℤ} (hrate : ∀ j, b'.rate j = b.rate j)
    (hother : ∀ j, j ≠ i → b'.stake j = b.stake j)
    (hi : b'.stake i = b.stake i + δ * b.rate i) (h : Step b (b.move i δ b'.flight)) :
    Step b b' := by
  have hb' : b' = b.move i δ b'.flight := by
    obtain ⟨rate, stake, flight⟩ := b'
    rw [move, mk.injEq]
    refine ⟨funext hrate, funext fun j => ?_, rfl⟩
    by_cases hj : j = i
    · subst hj
      rw [Function.update_self]
      exact hi
    · rw [Function.update_of_ne hj]
      exact hother j hj
  rwa [hb']

/-- The books of these parties and of others, over one flight. -/
def sum {κ : Type} (b : Books ι) (c : Books κ) : Books (ι ⊕ κ) :=
  ⟨Sum.elim b.rate c.rate, Sum.elim b.stake c.stake, b.flight⟩

section

variable {κ : Type} [DecidableEq κ]

/-- A step of some of the parties is a step of all. -/
theorem Step.inl {b b' : Books ι} (c : Books κ) (h : Step b b') :
    Step (b.sum c) (b'.sum c) := by
  have hmove (i : ι) (δ : ℤ) (flight : List ℕ) :
      (b.move i δ flight).sum c = (b.sum c).move (.inl i) δ flight := by
    simp only [move, sum, Sum.elim_inl, Sum.update_elim_inl]
  cases h with
  | send i v =>
      rw [hmove]
      exact .send _ v
  | receive i v rest hperm =>
      rw [hmove]
      exact .receive _ v rest hperm
  | stay => exact .stay

theorem Step.inr {b : Books ι} {c c' : Books κ} (hflight : b.flight = c.flight) (h : Step c c') :
    Step (b.sum c) (Books.sum { b with flight := c'.flight } c') := by
  have hmove (k : κ) (δ : ℤ) (flight : List ℕ) :
      Books.sum { b with flight } (c.move k δ flight) = (b.sum c).move (.inr k) δ flight := by
    simp only [move, sum, Sum.elim_inr, Sum.update_elim_inr]
  cases h with
  | send k v =>
      rw [show (c.move k v (v :: c.flight)).flight = v :: b.flight by rw [hflight]; rfl, ← hflight,
        hmove]
      exact .send _ v
  | receive k v rest hperm =>
      rw [show (c.move k (-v) rest).flight = rest from rfl, hmove]
      exact .receive _ v rest (hflight ▸ hperm)
  | stay =>
      rw [← hflight]
      exact .stay

end

/-- The net the books stand for. -/
def net (b : Books ι) : ValueNet ι ℤ :=
  ⟨fun i => b.stake i / b.rate i, Multiset.ofList (b.flight.map Nat.cast)⟩

/-- Every stake is a whole number of units of value. -/
structure Exact (b : Books ι) : Prop where
  rate : ∀ i, b.rate i ≠ 0
  dvd : ∀ i, b.rate i ∣ b.stake i

omit [DecidableEq ι] in
/-- Books with no stakes are exact and stand for the empty net. -/
theorem exact_of_stake_zero {b : Books ι} (hrate : ∀ i, b.rate i ≠ 0)
    (hstake : ∀ i, b.stake i = 0) : b.Exact :=
  ⟨hrate, fun i => by rw [hstake]; exact Int.dvd_zero _⟩

omit [DecidableEq ι] in
theorem net_of_stake_zero {b : Books ι} (hstake : ∀ i, b.stake i = 0) (hflight : b.flight = []) :
    b.net = .empty := by
  rw [net, ValueNet.empty, ValueNet.mk.injEq]
  exact ⟨funext fun i => by rw [hstake, Int.zero_ediv], by rw [hflight]; rfl⟩

theorem Exact.move {b : Books ι} (h : b.Exact) (i : ι) (δ : ℤ) (flight : List ℕ) :
    (b.move i δ flight).Exact := by
  refine ⟨h.rate, fun j => ?_⟩
  simp only [Books.move]
  by_cases hj : j = i
  · subst hj
    rw [Function.update_self]
    exact Int.dvd_add (h.dvd j) (Int.dvd_mul_left _ _)
  · rw [Function.update_of_ne hj]
    exact h.dvd j

/-- In units of value, one position moved by `δ`. -/
theorem position_move {b : Books ι} {i : ι} (h : b.rate i ≠ 0) (δ : ℤ) (flight : List ℕ) :
    (b.move i δ flight).net.position =
      Function.update b.net.position i (b.net.position i + δ) := by
  funext j
  simp only [net, move]
  by_cases hj : j = i
  · subst hj
    rw [Function.update_self, Function.update_self, Int.add_mul_ediv_right _ _ h]
  · rw [Function.update_of_ne hj, Function.update_of_ne hj]

theorem Step.exact {b b' : Books ι} (h : Step b b') (hb : b.Exact) : b'.Exact := by
  cases h with
  | send | receive => exact hb.move _ _ _
  | stay => exact hb

/-- A step of exact books is a step of their net. -/
theorem Step.net {b b' : Books ι} (h : Step b b') (hb : b.Exact) :
    ValueNet.Step b.net b'.net := by
  cases h with
  | send i v =>
      have hnet : (b.move i v (v :: b.flight)).net = b.net.send i v := by
        rw [Books.net, ValueNet.send, ValueNet.mk.injEq]
        exact ⟨position_move (hb.rate i) _ _, rfl⟩
      rw [hnet]
      exact .send _ _ _
  | receive i v rest hperm =>
      have hflight : b.net.flight = (v : ℤ) ::ₘ (b.move i (-v) rest).net.flight :=
        Multiset.coe_eq_coe.mpr (hperm.map Nat.cast)
      have hnet : (b.move i (-v) rest).net = b.net.receive i v (b.move i (-v) rest).net.flight := by
        rw [Books.net, ValueNet.receive, ValueNet.mk.injEq]
        exact ⟨(position_move (hb.rate i) _ _).trans (by rw [sub_eq_add_neg]), rfl⟩
      rw [hnet]
      exact .receive _ _ _ _ hflight
  | stay => exact .stay _

/-- What is exact and came from the empty net. -/
structure Sound (b : Books ι) : Prop where
  exact : b.Exact
  net : ValueNet.Reaches .empty b.net

theorem Step.sound {b b' : Books ι} (h : Step b b') (hb : b.Sound) : b'.Sound :=
  ⟨h.exact hb.exact, hb.net.tail (h.net hb.exact)⟩

/-- The stakes of sound books sum to what is in flight. -/
theorem Sound.sum [Fintype ι] {b : Books ι} (h : b.Sound) :
    ∑ i, b.stake i / b.rate i = (b.flight.sum : ℕ) := by
  have hbalanced : ∑ i, b.stake i / b.rate i =
      (Multiset.ofList (b.flight.map Nat.cast)).sum :=
    h.net.balanced ValueNet.balanced_empty
  rw [hbalanced, Multiset.sum_coe, Nat.cast_list_sum]

end Books
