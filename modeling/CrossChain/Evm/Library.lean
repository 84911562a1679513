import CrossChain.Lib.Bytes
import CrossChain.Lib.Checked
import Mathlib.Logic.Function.Basic

/-!
# CrossChain.Evm.Library

The contracts the EVM wrappers stand on.  Their code is not part of the
repository, so each is a structure: the functions the wrappers call, and what
the wrappers rely on them for.

A `uint256` is a natural number, and a call that reverts returns `none`.
-/

namespace CrossChain.Evm

/-- `address`: 20 bytes. -/
abbrev Address := FixedBytes 20

/-! ## `RateLimiter` -/

/-- `RateLimit`: an entry of `rateLimits`. -/
structure RateLimit where
  amountInFlight : ℕ
  lastUpdated : ℕ
  limit : ℕ
  window : ℕ
  deriving DecidableEq, Repr

/-- `RateLimitConfig`. -/
structure RateLimitConfig where
  dstEid : UInt32
  limit : ℕ
  window : ℕ
  deriving DecidableEq, Repr

/-- `mapping(uint32 dstEid => RateLimit) rateLimits` -/
abbrev RateLimits := UInt32 → RateLimit

/-- `RateLimiter`, which handles each entry of the mapping by itself.  The
first argument of its functions is the block's timestamp. -/
structure RateLimiter where
  /-- `_amountCanBeSent`: the amount in flight by now, and what can be sent -/
  amountCanBeSent : ℕ → RateLimit → Option (ℕ × ℕ)
  /-- `_outflow` of an amount, on the entry of its key -/
  outflowEntry : ℕ → RateLimit → ℕ → Option RateLimit
  /-- `_setRateLimits` on an entry, before it writes the limit and the window -/
  checkpoint : ℕ → RateLimit → Option RateLimit
  /-- once the window has passed, the whole limit can be sent -/
  outflow_elapsed : ∀ now rl amount, rl.lastUpdated + rl.window ≤ now → amount ≤ rl.limit →
    outflowEntry now rl amount = some { rl with amountInFlight := amount, lastUpdated := now }
  /-- an entry is configured again in the block that updated it last -/
  checkpoint_current : ∀ rl, ∃ rl', checkpoint rl.lastUpdated rl = some rl' ∧
    rl'.lastUpdated = rl.lastUpdated

namespace RateLimiter

/-- An instance to run on: what is in flight decays in proportion to the time
that has passed. -/
def sampleAmounts (now : ℕ) (rl : RateLimit) : Option (ℕ × ℕ) :=
  if now < rl.lastUpdated then none
  else if rl.window ≤ now - rl.lastUpdated then some (0, rl.limit)
  else
    let inFlight := rl.amountInFlight - rl.limit * (now - rl.lastUpdated) / rl.window
    some (inFlight, rl.limit - inFlight)

def sampleOutflow (now : ℕ) (rl : RateLimit) (amount : ℕ) : Option RateLimit := do
  let (inFlight, canBeSent) ← sampleAmounts now rl
  if amount ≤ canBeSent then
    pure { rl with amountInFlight := inFlight + amount, lastUpdated := now }
  else none

def sample : RateLimiter where
  amountCanBeSent := sampleAmounts
  outflowEntry := sampleOutflow
  checkpoint now rl := sampleOutflow now rl 0
  outflow_elapsed now rl amount helapsed hle := by
    have hamounts : sampleAmounts now rl = some (0, rl.limit) := by
      rw [sampleAmounts, if_neg (by omega), if_pos (by omega)]
    simp [sampleOutflow, hamounts, hle]
  checkpoint_current rl := by
    have hamounts : ∃ r, sampleAmounts rl.lastUpdated rl = some r := by
      unfold sampleAmounts
      split
      · next h => exact absurd h (Nat.lt_irrefl _)
      · split <;> exact ⟨_, rfl⟩
    obtain ⟨r, hr⟩ := hamounts
    simp [sampleOutflow, hr]

/-- `_outflow`. -/
def outflow (lib : RateLimiter) (now : ℕ) (rateLimits : RateLimits) (dstEid : UInt32)
    (amount : ℕ) : Option RateLimits := do
  let rl ← lib.outflowEntry now (rateLimits dstEid) amount
  pure (Function.update rateLimits dstEid rl)

/-- `_setRateLimits`: one entry after the other. -/
def setRateLimits (lib : RateLimiter) (now : ℕ) : RateLimits → List RateLimitConfig →
    Option RateLimits
  | rateLimits, [] => some rateLimits
  | rateLimits, config :: configs => do
      let rl ← lib.checkpoint now (rateLimits config.dstEid)
      let rl := { rl with limit := config.limit, window := config.window }
      setRateLimits lib now (Function.update rateLimits config.dstEid rl) configs

variable {lib : RateLimiter}

/-- An outflow touches the entry of its key only. -/
theorem outflow_of_ne {now amount : ℕ} {m m' : RateLimits} {dstEid key : UInt32}
    (h : lib.outflow now m dstEid amount = some m') (hne : key ≠ dstEid) : m' key = m key := by
  obtain ⟨rl, -, hm'⟩ := Option.bind_eq_some_iff.mp h
  rw [← Option.some.inj hm', Function.update_of_ne hne]

theorem outflow_self {now amount : ℕ} {m m' : RateLimits} {key : UInt32}
    (h : lib.outflow now m key amount = some m') :
    lib.outflowEntry now (m key) amount = some (m' key) := by
  obtain ⟨rl, hrl, hm'⟩ := Option.bind_eq_some_iff.mp h
  rw [hrl, ← Option.some.inj hm', Function.update_self]

/-- Configuring touches the entries that are named only. -/
theorem setRateLimits_of_not_mem {now : ℕ} {m m' : RateLimits} {configs : List RateLimitConfig}
    {key : UInt32} (h : lib.setRateLimits now m configs = some m')
    (hnot : ∀ c ∈ configs, c.dstEid ≠ key) : m' key = m key := by
  induction configs generalizing m with
  | nil => rw [← Option.some.inj h]
  | cons config configs ih =>
      obtain ⟨rl, -, htail⟩ := Option.bind_eq_some_iff.mp h
      rw [ih htail fun c hc => hnot c (List.mem_cons_of_mem _ hc),
        Function.update_of_ne (hnot config List.mem_cons_self).symm]

/-- An entry that was named has a limit it was named with. -/
theorem limit_setRateLimits {now : ℕ} {m m' : RateLimits} {configs : List RateLimitConfig}
    (h : lib.setRateLimits now m configs = some m') (key : UInt32) :
    (∃ c ∈ configs, (m' key).limit = c.limit) ∨ ∀ c ∈ configs, c.dstEid ≠ key := by
  induction configs generalizing m with
  | nil => exact .inr nofun
  | cons config configs ih =>
      obtain ⟨rl, -, htail⟩ := Option.bind_eq_some_iff.mp h
      cases ih htail with
      | inl hc =>
          obtain ⟨c, hmem, hlimit⟩ := hc
          exact .inl ⟨c, List.mem_cons_of_mem _ hmem, hlimit⟩
      | inr hnot =>
          by_cases hkey : config.dstEid = key
          · refine .inl ⟨config, List.mem_cons_self, ?_⟩
            rw [setRateLimits_of_not_mem htail hnot, hkey, Function.update_self]
          · exact .inr (List.forall_mem_cons.mpr ⟨hkey, hnot⟩)

/-- Entries that were all updated in this block can be configured. -/
theorem exists_setRateLimits (lib : RateLimiter) {now : ℕ} {m : RateLimits}
    (hm : ∀ key, (m key).lastUpdated = now) (configs : List RateLimitConfig) :
    ∃ m', lib.setRateLimits now m configs = some m' := by
  induction configs generalizing m with
  | nil => exact ⟨m, rfl⟩
  | cons config configs ih =>
      obtain ⟨rl, hrl, hlast⟩ := lib.checkpoint_current (m config.dstEid)
      rw [hm] at hrl hlast
      have hnext : ∀ key, (Function.update m config.dstEid
          { rl with limit := config.limit, window := config.window } key).lastUpdated = now := by
        intro key
        by_cases hkey : key = config.dstEid
        · rw [hkey, Function.update_self]
          exact hlast
        · rw [Function.update_of_ne hkey]
          exact hm key
      obtain ⟨m', hm'⟩ := ih hnext
      exact ⟨m', by rw [setRateLimits, hrl]; exact hm'⟩

end RateLimiter

/-! ## `OFTCore` -/

/-- `OFTCore` of a deployment. -/
structure OFTCore where
  decimalConversionRate : ℕ
  /-- `_debitView(_amountLD, _minAmountLD, _dstEid)`: sent and received -/
  debitView : ℕ → ℕ → UInt32 → Option (ℕ × ℕ)
  /-- `_toSD`, which reverts on what is no `uint64` -/
  toSD : ℕ → Option UInt64
  /-- `_toLD` -/
  toLD : UInt64 → ℕ
  rate_ne_zero : decimalConversionRate ≠ 0
  /-- the dust is removed, and the minimum checked -/
  debitView_eq : ∀ amountLD minAmountLD dstEid, debitView amountLD minAmountLD dstEid =
    let dustFree := amountLD / decimalConversionRate * decimalConversionRate
    if minAmountLD ≤ dustFree then some (dustFree, dustFree) else none
  toSD_eq_some : ∀ amountLD sd, toSD amountLD = some sd ↔
    amountLD / decimalConversionRate = sd.toNat
  toLD_eq : ∀ sd, toLD sd = sd.toNat * decimalConversionRate

/-- A token with `k` decimals more than are shared. -/
def OFTCore.sample (k : ℕ) : OFTCore where
  decimalConversionRate := 10 ^ k
  debitView amountLD minAmountLD _ :=
    let dustFree := amountLD / 10 ^ k * 10 ^ k
    if minAmountLD ≤ dustFree then some (dustFree, dustFree) else none
  toSD amountLD := UInt64.ofNat? (amountLD / 10 ^ k)
  toLD sd := sd.toNat * 10 ^ k
  rate_ne_zero := Nat.ne_of_gt (Nat.pow_pos (by decide))
  debitView_eq _ _ _ := rfl
  toSD_eq_some _ _ := UInt64.ofNat?_eq_some
  toLD_eq _ := rfl

/-! ## `PaxosTokenV2` -/

/-- `PaxosTokenV2` of a deployment, in whose calls the wrapper is the sender. -/
structure PaxosToken where
  State : Type
  totalSupply : State → ℕ
  /-- `decreaseSupplyFromAddress(value, burnFromAddress)` -/
  decreaseSupplyFromAddress : State → ℕ → Address → Option State
  /-- `increaseSupplyToAddress(value, mintToAddress)` -/
  increaseSupplyToAddress : State → ℕ → Address → Option State
  decrease : ∀ s s' value addr, decreaseSupplyFromAddress s value addr = some s' →
    totalSupply s' + value = totalSupply s
  increase : ∀ s s' value addr, increaseSupplyToAddress s value addr = some s' →
    totalSupply s' = totalSupply s + value
  /-- somebody is not frozen -/
  accepts : ∃ s addr, (decreaseSupplyFromAddress s 0 addr).isSome ∧
    (increaseSupplyToAddress s 0 addr).isSome

/-- A token whose ledger is its supply and the balances, with nobody frozen. -/
def PaxosToken.sample : PaxosToken where
  State := ℕ × (Address → ℕ)
  totalSupply s := s.1
  decreaseSupplyFromAddress s value addr :=
    if value ≤ s.1 ∧ value ≤ s.2 addr then
      some (s.1 - value, Function.update s.2 addr (s.2 addr - value))
    else none
  increaseSupplyToAddress s value addr :=
    some (s.1 + value, Function.update s.2 addr (s.2 addr + value))
  decrease s s' value addr h := by
    split at h
    · next hle =>
      rw [← Option.some.inj h]
      exact Nat.sub_add_cancel hle.1
    · contradiction
  increase s s' value addr h := by rw [← Option.some.inj h]
  accepts := ⟨(0, fun _ => 0), FixedBytes.zero 20, rfl, rfl⟩

/-- The balances of a `PaxosTokenV2`: the calls of the wrapper change that of
the address they are made for. -/
structure PaxosToken.Ledger (token : PaxosToken) where
  balanceOf : token.State → Address → ℕ
  decrease_self : ∀ {s s' value addr}, token.decreaseSupplyFromAddress s value addr = some s' →
    balanceOf s' addr + value = balanceOf s addr
  decrease_of_ne : ∀ {s s' value addr a}, token.decreaseSupplyFromAddress s value addr = some s' →
    a ≠ addr → balanceOf s' a = balanceOf s a
  increase_self : ∀ {s s' value addr}, token.increaseSupplyToAddress s value addr = some s' →
    balanceOf s' addr = balanceOf s addr + value
  increase_of_ne : ∀ {s s' value addr a}, token.increaseSupplyToAddress s value addr = some s' →
    a ≠ addr → balanceOf s' a = balanceOf s a

theorem PaxosToken.sample_decrease {s s' : ℕ × (Address → ℕ)} {value : ℕ} {addr : Address}
    (h : PaxosToken.sample.decreaseSupplyFromAddress s value addr = some s') :
    value ≤ s.2 addr ∧ s'.2 = Function.update s.2 addr (s.2 addr - value) := by
  obtain ⟨hle, hs⟩ := Option.ite_none_right_eq_some.mp h
  rw [← Option.some.inj hs]
  exact ⟨hle.2, rfl⟩

theorem PaxosToken.sample_increase {s s' : ℕ × (Address → ℕ)} {value : ℕ} {addr : Address}
    (h : PaxosToken.sample.increaseSupplyToAddress s value addr = some s') :
    s'.2 = Function.update s.2 addr (s.2 addr + value) := by
  rw [← Option.some.inj h]

/-- The balances of the instance. -/
def PaxosToken.Ledger.sample : PaxosToken.sample.Ledger where
  balanceOf := Prod.snd
  decrease_self h := by
    obtain ⟨hle, hs⟩ := sample_decrease h
    rw [hs, Function.update_self]
    exact Nat.sub_add_cancel hle
  decrease_of_ne h hne := by rw [(sample_decrease h).2, Function.update_of_ne hne]
  increase_self h := by rw [sample_increase h, Function.update_self]
  increase_of_ne h hne := by rw [sample_increase h, Function.update_of_ne hne]

end CrossChain.Evm
