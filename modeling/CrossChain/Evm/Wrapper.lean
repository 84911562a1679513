import CrossChain.Evm.Library

/-!
# CrossChain.Evm.Wrapper

The two wrappers around a Paxos token (contracts/OFTWrapper.sol and
contracts/OFTWrapperUpgradeable.sol).

Both limit what is sent to an endpoint id.  The upgradeable one also limits
what is received from an endpoint id, in the same mapping, under the id plus
`INBOUND_EID_OFFSET`.
-/

namespace CrossChain.Evm

/-- The code a wrapper is deployed with. -/
structure Deployment where
  limiter : RateLimiter
  core : OFTCore
  paxosToken : PaxosToken

/-- A deployment whose token has `k` decimals more than are shared. -/
def Deployment.sample (k : ℕ) : Deployment := ⟨.sample, .sample k, .sample⟩

/-- The storage of a wrapper and of its token. -/
structure Wrapper (d : Deployment) where
  owner : Address
  rateLimits : RateLimits
  token : d.paxosToken.State

namespace Wrapper

variable {d : Deployment}

def totalSupply (w : Wrapper d) : ℕ := d.paxosToken.totalSupply w.token

/-- `onlyOwner` and then `_setRateLimits`. -/
def configure (w : Wrapper d) (now : ℕ) (sender : Address) (configs : List RateLimitConfig) :
    Option (Wrapper d) :=
  if sender = w.owner then do
    let rateLimits ← d.limiter.setRateLimits now w.rateLimits configs
    pure { w with rateLimits }
  else none

/-- The `_debit` of both wrappers: the amounts sent and received. -/
def debit (w : Wrapper d) (now : ℕ) (holder : Address) (amountLD minAmountLD : ℕ)
    (dstEid : UInt32) : Option (Wrapper d × ℕ × ℕ) := do
  let (amountSentLD, amountReceivedLD) ← d.core.debitView amountLD minAmountLD dstEid
  let rateLimits ← d.limiter.outflow now w.rateLimits dstEid amountSentLD
  let token ← d.paxosToken.decreaseSupplyFromAddress w.token amountSentLD holder
  pure ({ w with rateLimits, token }, amountSentLD, amountReceivedLD)

end Wrapper

/-! ## `OFTWrapper` -/

namespace OFTWrapper

variable {d : Deployment}

/-- `OFTWrapper.setRateLimits`. -/
def setRateLimits (w : Wrapper d) (now : ℕ) (sender : Address) (configs : List RateLimitConfig) :
    Option (Wrapper d) := w.configure now sender configs

/-- `OFTWrapper._debit`. -/
def debit (w : Wrapper d) (now : ℕ) (holder : Address) (amountLD minAmountLD : ℕ)
    (dstEid : UInt32) : Option (Wrapper d × ℕ × ℕ) :=
  w.debit now holder amountLD minAmountLD dstEid

/-- `OFTWrapper._credit`: no limit applies to what is received. -/
def credit (w : Wrapper d) (holder : Address) (amountLD : ℕ) (_srcEid : UInt32) :
    Option (Wrapper d × ℕ) := do
  let token ← d.paxosToken.increaseSupplyToAddress w.token amountLD holder
  pure ({ w with token }, amountLD)

end OFTWrapper

/-! ## `OFTWrapperUpgradeable` -/

namespace OFTWrapperUpgradeable

variable {d : Deployment}

def INBOUND_EID_OFFSET : UInt32 := 1000000000

/-- `OFTWrapperUpgradeable.setOutboundRateLimits`. -/
def setOutboundRateLimits (w : Wrapper d) (now : ℕ) (sender : Address)
    (configs : List RateLimitConfig) : Option (Wrapper d) := w.configure now sender configs

/-- The `offsetConfigs` of `_setInboundRateLimits`. -/
def offsetConfigs : List RateLimitConfig → Option (List RateLimitConfig)
  | [] => some []
  | config :: configs => do
      let dstEid ← config.dstEid.checkedAdd INBOUND_EID_OFFSET
      let rest ← offsetConfigs configs
      pure ({ config with dstEid } :: rest)

/-- `OFTWrapperUpgradeable.setInboundRateLimits`. -/
def setInboundRateLimits (w : Wrapper d) (now : ℕ) (sender : Address)
    (configs : List RateLimitConfig) : Option (Wrapper d) := do
  let offsetConfigs ← offsetConfigs configs
  w.configure now sender offsetConfigs

/-- `OFTWrapperUpgradeable.inboundRateLimits`. -/
def inboundRateLimits (w : Wrapper d) (srcEid : UInt32) : Option RateLimit := do
  let key ← srcEid.checkedAdd INBOUND_EID_OFFSET
  pure (w.rateLimits key)

/-- `OFTWrapperUpgradeable.getAmountCanBeReceived`. -/
def getAmountCanBeReceived (w : Wrapper d) (now : ℕ) (srcEid : UInt32) : Option (ℕ × ℕ) := do
  let key ← srcEid.checkedAdd INBOUND_EID_OFFSET
  d.limiter.amountCanBeSent now (w.rateLimits key)

/-- `OFTWrapperUpgradeable._debit`. -/
def debit (w : Wrapper d) (now : ℕ) (holder : Address) (amountLD minAmountLD : ℕ)
    (dstEid : UInt32) : Option (Wrapper d × ℕ × ℕ) :=
  w.debit now holder amountLD minAmountLD dstEid

/-- `OFTWrapperUpgradeable._credit`. -/
def credit (w : Wrapper d) (now : ℕ) (holder : Address) (amountLD : ℕ) (srcEid : UInt32) :
    Option (Wrapper d × ℕ) := do
  let key ← srcEid.checkedAdd INBOUND_EID_OFFSET
  let rateLimits ← d.limiter.outflow now w.rateLimits key amountLD
  let token ← d.paxosToken.increaseSupplyToAddress w.token amountLD holder
  pure ({ w with rateLimits, token }, amountLD)

end OFTWrapperUpgradeable

/-! ## what the calls do -/

section

variable {d : Deployment}

theorem Wrapper.configure_eq_some {w w' : Wrapper d} {now : ℕ} {sender : Address}
    {configs : List RateLimitConfig} :
    w.configure now sender configs = some w' ↔ sender = w.owner ∧
      ∃ rateLimits, d.limiter.setRateLimits now w.rateLimits configs = some rateLimits ∧
        w' = { w with rateLimits } := by
  unfold Wrapper.configure
  split
  · next h =>
    simp only [h, true_and, bind, Option.bind_eq_some_iff, pure, Option.some.injEq]
    exact exists_congr fun _ => and_congr_right fun _ => eq_comm
  · next h => simp [h]

/-- A debit burns the amount it returns, twice the same, without dust, and
counts it against the limit of its destination. -/
structure Debited (d : Deployment) (now : ℕ) (w w' : Wrapper d) (dstEid : UInt32) (amountLD : ℕ) :
    Prop where
  dvd : d.core.decimalConversionRate ∣ amountLD
  outflow : d.limiter.outflow now w.rateLimits dstEid amountLD = some w'.rateLimits
  supply : w'.totalSupply + amountLD = w.totalSupply

theorem Wrapper.debited {w w' : Wrapper d} {now amountLD minAmountLD sent received : ℕ}
    {holder : Address} {dstEid : UInt32}
    (h : w.debit now holder amountLD minAmountLD dstEid = some (w', sent, received)) :
    received = sent ∧ Debited d now w w' dstEid sent := by
  simp only [Wrapper.debit, bind, Option.bind_eq_some_iff, pure, Option.some.injEq, Prod.mk.injEq,
    OFTCore.debitView_eq] at h
  obtain ⟨⟨s, r⟩, hview, rateLimits, houtflow, token, hburn, rfl, rfl, rfl⟩ := h
  split at hview
  · obtain ⟨rfl, rfl⟩ := Prod.mk.injEq _ _ _ _ ▸ Option.some.inj hview
    exact ⟨rfl, Nat.dvd_mul_left _ _, houtflow, d.paxosToken.decrease _ _ _ _ hburn⟩
  · contradiction

/-- What a debit asks of the token. -/
theorem Wrapper.token_debit {w w' : Wrapper d} {now amountLD minAmountLD sent received : ℕ}
    {holder : Address} {dstEid : UInt32}
    (h : w.debit now holder amountLD minAmountLD dstEid = some (w', sent, received)) :
    minAmountLD ≤ sent ∧ sent ≤ amountLD ∧
      d.paxosToken.decreaseSupplyFromAddress w.token sent holder = some w'.token := by
  simp only [Wrapper.debit, bind, Option.bind_eq_some_iff, pure, Option.some.injEq, Prod.mk.injEq,
    OFTCore.debitView_eq] at h
  obtain ⟨⟨s, r⟩, hview, rateLimits, houtflow, token, hburn, rfl, rfl, rfl⟩ := h
  split at hview
  · next hmin =>
    obtain ⟨rfl, rfl⟩ := Prod.mk.injEq _ _ _ _ ▸ Option.some.inj hview
    exact ⟨hmin, Nat.div_mul_le_self _ _, hburn⟩
  · contradiction

/-- What a credit asks of the token. -/
theorem OFTWrapper.token_credit {w w' : Wrapper d} {holder : Address} {amountLD received : ℕ}
    {srcEid : UInt32} (h : credit w holder amountLD srcEid = some (w', received)) :
    d.paxosToken.increaseSupplyToAddress w.token amountLD holder = some w'.token := by
  simp only [credit, bind, Option.bind_eq_some_iff, pure, Option.some.injEq, Prod.mk.injEq] at h
  obtain ⟨token, hmint, rfl, rfl⟩ := h
  exact hmint

theorem OFTWrapperUpgradeable.token_credit {w w' : Wrapper d} {now amountLD received : ℕ}
    {holder : Address} {srcEid : UInt32}
    (h : credit w now holder amountLD srcEid = some (w', received)) :
    d.paxosToken.increaseSupplyToAddress w.token amountLD holder = some w'.token := by
  simp only [credit, bind, Option.bind_eq_some_iff, pure, Option.some.injEq, Prod.mk.injEq] at h
  obtain ⟨key, -, rateLimits, -, token, hmint, rfl, rfl⟩ := h
  exact hmint

/-- A credit through the upgradeable wrapper also counts the amount against
the limit of its source. -/
theorem OFTWrapperUpgradeable.credited {w w' : Wrapper d} {now amountLD received : ℕ}
    {holder : Address} {srcEid : UInt32}
    (h : credit w now holder amountLD srcEid = some (w', received)) :
    (∃ key, srcEid.checkedAdd INBOUND_EID_OFFSET = some key ∧
      d.limiter.outflow now w.rateLimits key amountLD = some w'.rateLimits) ∧
    w'.totalSupply = w.totalSupply + amountLD := by
  refine ⟨?_, d.paxosToken.increase _ _ _ _ (token_credit h)⟩
  simp only [credit, bind, Option.bind_eq_some_iff, pure, Option.some.injEq, Prod.mk.injEq] at h
  obtain ⟨key, hkey, rateLimits, houtflow, token, -, rfl, rfl⟩ := h
  exact ⟨key, hkey, houtflow⟩

/-- `amountLD` is taken from the supply and from the balance of `holder`, and no
other balance changes. -/
structure Burns (ledger : d.paxosToken.Ledger) (w w' : Wrapper d) (holder : Address)
    (amountLD : ℕ) : Prop where
  supply : w'.totalSupply + amountLD = w.totalSupply
  balance : ledger.balanceOf w'.token holder + amountLD = ledger.balanceOf w.token holder
  other : ∀ a, a ≠ holder → ledger.balanceOf w'.token a = ledger.balanceOf w.token a

/-- `amountLD` is added to the supply and to the balance of `holder`, and no
other balance changes. -/
structure Mints (ledger : d.paxosToken.Ledger) (w w' : Wrapper d) (holder : Address)
    (amountLD : ℕ) : Prop where
  supply : w'.totalSupply = w.totalSupply + amountLD
  balance : ledger.balanceOf w'.token holder = ledger.balanceOf w.token holder + amountLD
  other : ∀ a, a ≠ holder → ledger.balanceOf w'.token a = ledger.balanceOf w.token a

theorem burns_of_decrease (ledger : d.paxosToken.Ledger) {w w' : Wrapper d} {holder : Address}
    {amountLD : ℕ}
    (h : d.paxosToken.decreaseSupplyFromAddress w.token amountLD holder = some w'.token) :
    Burns ledger w w' holder amountLD :=
  ⟨d.paxosToken.decrease _ _ _ _ h, ledger.decrease_self h, fun _ => ledger.decrease_of_ne h⟩

theorem mints_of_increase (ledger : d.paxosToken.Ledger) {w w' : Wrapper d} {holder : Address}
    {amountLD : ℕ}
    (h : d.paxosToken.increaseSupplyToAddress w.token amountLD holder = some w'.token) :
    Mints ledger w w' holder amountLD :=
  ⟨d.paxosToken.increase _ _ _ _ h, ledger.increase_self h, fun _ => ledger.increase_of_ne h⟩

end

end CrossChain.Evm
