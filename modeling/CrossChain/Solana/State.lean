import CrossChain.Lib.CappedFee
import CrossChain.Solana.Externals
import CrossChain.Solana.RateLimiter

/-!
# CrossChain.Solana.State

The accounts the program owns: the store (state/oft.rs) and, for each remote
endpoint, a peer (state/peer_config.rs).
-/

namespace CrossChain

/-! ## the store -/

/-- `OFTType`. -/
inductive OFTType where
  | native
  | adapter
  deriving DecidableEq, Repr

/-- `OFTStore`. -/
structure OFTStore where
  oftType : OFTType
  ld2sdRate : UInt64
  tokenMint : Pubkey
  tokenEscrow : Pubkey
  endpointProgram : Pubkey
  bump : UInt8
  /-- total value locked; always 0 for a native store -/
  tvlLd : UInt64
  admin : Pubkey
  defaultFeeBps : UInt16
  paused : Bool
  pauser : Option Pubkey
  unpauser : Option Pubkey
  deriving DecidableEq, Repr

namespace OFTStore

/-- What `init_oft` fixes for good. -/
def origin (s : OFTStore) : OFTType × UInt64 × Pubkey × Pubkey × Pubkey × UInt8 :=
  (s.oftType, s.ld2sdRate, s.tokenMint, s.tokenEscrow, s.endpointProgram, s.bump)

/-- What only the admin sets. -/
def roles (s : OFTStore) : Pubkey × UInt16 × Option Pubkey × Option Pubkey :=
  (s.admin, s.defaultFeeBps, s.pauser, s.unpauser)

/-- `OFTStore::ld2sd`. -/
def ld2sd (s : OFTStore) (amountLd : UInt64) : Result UInt64 :=
  orAbort (amountLd.checkedDiv s.ld2sdRate)

/-- `OFTStore::sd2ld`. -/
def sd2ld (s : OFTStore) (amountSd : UInt64) : Result UInt64 :=
  orAbort (amountSd.checkedMul s.ld2sdRate)

/-- `OFTStore::remove_dust`. -/
def removeDust (s : OFTStore) (amountLd : UInt64) : Result UInt64 := do
  let dust ← orAbort (amountLd.checkedRem s.ld2sdRate)
  orAbort (amountLd.checkedSub dust)

theorem ld2sd_eq_ok {s : OFTStore} {ld sd : UInt64} :
    s.ld2sd ld = .ok sd ↔ s.ld2sdRate.toNat ≠ 0 ∧ ld.toNat / s.ld2sdRate.toNat = sd.toNat := by
  rw [ld2sd, orAbort_eq_ok, UInt64.checkedDiv_eq_some]

theorem sd2ld_eq_ok {s : OFTStore} {sd ld : UInt64} :
    s.sd2ld sd = .ok ld ↔ sd.toNat * s.ld2sdRate.toNat = ld.toNat := by
  rw [sd2ld, orAbort_eq_ok, UInt64.checkedMul_eq_some]

/-- Removing dust rounds down to a multiple of the rate, and fails on a zero
rate only. -/
theorem removeDust_eq_ok {s : OFTStore} {ld clean : UInt64} :
    s.removeDust ld = .ok clean ↔
      s.ld2sdRate.toNat ≠ 0 ∧ CappedFee.floorTo s.ld2sdRate.toNat ld.toNat = clean.toNat := by
  simp only [removeDust, Except.bind_eq_ok, orAbort_eq_ok, UInt64.checkedRem_eq_some,
    UInt64.checkedSub_eq_some, CappedFee.floorTo]
  constructor
  · rintro ⟨dust, ⟨hrate, hrem⟩, hsub⟩
    exact ⟨hrate, by omega⟩
  · rintro ⟨hrate, hfloor⟩
    have hle := Nat.mod_le ld.toNat s.ld2sdRate.toNat
    refine ⟨ld % s.ld2sdRate, ⟨hrate, by simp⟩, ?_⟩
    rw [UInt64.toNat_mod]
    omega

end OFTStore

/-! ## the peer -/

def ENFORCED_OPTIONS_SEND_MAX_LEN : ℕ := 512

def ENFORCED_OPTIONS_SEND_AND_CALL_MAX_LEN : ℕ := 1024

/-- `EnforcedOptions`. -/
structure EnforcedOptions where
  send : List UInt8
  sendAndCall : List UInt8
  deriving DecidableEq, Repr

namespace EnforcedOptions

/-- `EnforcedOptions::get_enforced_options`. -/
def getEnforcedOptions (o : EnforcedOptions) (composedMsg : Option (List UInt8)) : List UInt8 :=
  if composedMsg.isNone then o.send else o.sendAndCall

/-- `EnforcedOptions::combine_options`. -/
def combineOptions (o : EnforcedOptions) (env : Externals) (composeMsg : Option (List UInt8))
    (extraOptions : List UInt8) : Result (List UInt8) :=
  env.combineOptions (o.getEnforcedOptions composeMsg) extraOptions

end EnforcedOptions

/-- `PeerConfig`. -/
structure PeerConfig where
  peerAddress : FixedBytes 32
  enforcedOptions : EnforcedOptions
  outboundRateLimiter : Option RateLimiter
  inboundRateLimiter : Option RateLimiter
  feeBps : Option UInt16
  bump : UInt8
  deriving DecidableEq, Repr

namespace PeerConfig

/-- What only the admin sets: everything but the balances of the limiters. -/
def settings (p : PeerConfig) : FixedBytes 32 × EnforcedOptions × Option (UInt64 × UInt64) ×
    Option (UInt64 × UInt64) × Option UInt16 :=
  (p.peerAddress, p.enforcedOptions,
    p.outboundRateLimiter.map fun l => (l.capacity, l.refillPerSecond),
    p.inboundRateLimiter.map fun l => (l.capacity, l.refillPerSecond), p.feeBps)

/-- A freshly allocated account: all zeros. -/
def zeroed : PeerConfig where
  peerAddress := FixedBytes.zero 32
  enforcedOptions := ⟨[], []⟩
  outboundRateLimiter := none
  inboundRateLimiter := none
  feeBps := none
  bump := 0

/-- `RateLimiter::INIT_SPACE`: four `u64`. -/
def RATE_LIMITER_SPACE : ℕ := 32

/-- `PeerConfig::INIT_SPACE`: every vector at its `max_len` and every option
present. -/
def INIT_SPACE : ℕ :=
  32 + ((4 + ENFORCED_OPTIONS_SEND_MAX_LEN) + (4 + ENFORCED_OPTIONS_SEND_AND_CALL_MAX_LEN))
    + (1 + RATE_LIMITER_SPACE) + (1 + RATE_LIMITER_SPACE) + (1 + 2) + 1

/-- The Borsh size of an option: one byte, and the content if present. -/
def optionSize {α : Type} (size : ℕ) (x : Option α) : ℕ := if x.isSome then 1 + size else 1

/-- The Borsh size of a peer. -/
def serializedSize (p : PeerConfig) : ℕ :=
  32 + ((4 + p.enforcedOptions.send.length) + (4 + p.enforcedOptions.sendAndCall.length))
    + optionSize RATE_LIMITER_SPACE p.outboundRateLimiter
    + optionSize RATE_LIMITER_SPACE p.inboundRateLimiter + optionSize 2 p.feeBps + 1

/-- A freshly allocated account holds its own contents. -/
theorem serializedSize_zeroed_le : zeroed.serializedSize ≤ INIT_SPACE := by decide

end PeerConfig

end CrossChain
