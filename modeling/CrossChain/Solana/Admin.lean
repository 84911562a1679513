import CrossChain.Solana.Amounts
import CrossChain.Solana.Node

/-!
# CrossChain.Solana.Admin

The instructions that set a store up and configure it: `init_oft`,
`set_oft_config`, `set_pause`, `set_peer_config` and `withdraw_fee`.
-/

namespace CrossChain

/-! ## `init_oft` -/

/-- `InitOFTParams`. -/
structure InitOFTParams where
  oftType : OFTType
  admin : Pubkey
  sharedDecimals : UInt8
  endpointProgram : Option Pubkey
  deriving DecidableEq, Repr

namespace InitOFT

/-- The accounts of `InitOFT`. -/
structure Accounts where
  payer : LzAccount
  oftStore : LzAccount
  tokenMint : LzAccount
  tokenEscrow : LzAccount
  tokenProgram : LzAccount
  systemProgram : LzAccount
  deriving DecidableEq, Repr

/-- `InitOFT::apply`, on a mint whose ledger is `tokens`.  The store and its
escrow are created here, at an address that has no account yet. -/
def apply (env : Externals) (endpoint : Endpoint) (tokens : Tokens) (acc : Accounts)
    (remaining : List LzAccount) (params : InitOFTParams) : Result Node := do
  let (key, bump) :=
    env.findProgramAddress (Node.storeSeeds acc.tokenEscrow.pubkey) env.programId
  require (acc.payer.isSigner ∧ acc.payer.isWritable) .constraint
  require (acc.oftStore.pubkey = key ∧ acc.oftStore.isWritable) .constraint
  require (acc.tokenEscrow.isSigner ∧ acc.tokenEscrow.isWritable ∧
    tokens.accounts acc.tokenEscrow.pubkey = none) .constraint
  require (tokens.mint.tokenProgram = acc.tokenProgram.pubkey) .constraint
  require (env.isTokenProgram acc.tokenProgram.pubkey) .constraint
  require (acc.systemProgram.pubkey = env.systemProgramId) .constraint
  let opened ← okOr
    (env.tokenProgram.create tokens acc.payer.pubkey acc.tokenEscrow.pubkey key) .cpi
  require (params.sharedDecimals ≤ tokens.mint.decimals) (.oft .invalidDecimals)
  let ld2sdRate ← orAbort
    (UInt64.checkedPow 10 (tokens.mint.decimals.toNat - params.sharedDecimals.toNat))
  require (endpoint.registerOapp key remaining params.admin) .cpi
  pure {
    key
    store := {
      oftType := params.oftType
      ld2sdRate
      tokenMint := acc.tokenMint.pubkey
      tokenEscrow := acc.tokenEscrow.pubkey
      endpointProgram := params.endpointProgram.getD env.endpointId
      bump
      tvlLd := 0
      admin := params.admin
      defaultFeeBps := 0
      paused := false
      pauser := none
      unpauser := none }
    peers := fun _ => none
    tokens := opened }

/-- The accounts that make `Node.sample`. -/
def Accounts.sample : Accounts where
  payer := .signer (.ofByte 19)
  oftStore := .writable Node.sampleKey
  tokenMint := .readonly (.ofByte 11)
  tokenEscrow := .signer (.ofByte 12)
  tokenProgram := .readonly (.ofByte 3)
  systemProgram := .readonly .default

/-- A new store: its rate is a power of ten, its escrow is its own and empty,
and it has no peers. -/
structure Initialized (tokens : Tokens) (acc : Accounts) (params : InitOFTParams) (n : Node) :
    Prop where
  oftType : n.store.oftType = params.oftType
  tokenEscrow : n.store.tokenEscrow = acc.tokenEscrow.pubkey
  rate : n.store.ld2sdRate.toNat =
    10 ^ (tokens.mint.decimals.toNat - params.sharedDecimals.toNat)
  tvlLd : n.store.tvlLd = 0
  peers : ∀ eid, n.peers eid = none
  tokens : tokens.Opened n.tokens
  authority : n.tokens.hands n.store.tokenEscrow = some n.key
  escrow : n.tokens.balance n.store.tokenEscrow = 0

theorem initialized {env : Externals} {endpoint : Endpoint} {tokens : Tokens} {acc : Accounts}
    {remaining : List LzAccount} {params : InitOFTParams} {n : Node}
    (h : apply env endpoint tokens acc remaining params = .ok n) :
    Initialized tokens acc params n := by
  simp only [apply, Except.bind_eq_ok, Except.require_eq_ok, Except.okOr_eq_ok, Except.pure_eq_ok,
    orAbort_eq_ok, UInt64.checkedPow_eq_some] at h
  obtain ⟨-, -, -, -, -, hescrow, -, -, -, -, -, -, opened, hcreate, -, -, rate, hrate, -, -,
    rfl⟩ := h
  have hopened := env.tokenProgram.opened hescrow.2.2 hcreate
  exact ⟨rfl, rfl, hrate.symm, rfl, fun _ => rfl, hopened.opened hescrow.2.2,
    (hopened.hands _).trans (if_pos rfl), hopened.balance_self⟩

/-- A store that some `init_oft` made. -/
def Created (env : Externals) (n : Node) : Prop :=
  ∃ endpoint tokens acc remaining params,
    apply env endpoint tokens acc remaining params = .ok n

theorem Created.tvlLd {env : Externals} {n : Node} (h : Created env n) : n.store.tvlLd = 0 := by
  obtain ⟨endpoint, tokens, acc, remaining, params, happly⟩ := h
  exact (initialized happly).tvlLd

theorem Created.rate_ne_zero {env : Externals} {n : Node} (h : Created env n) :
    n.store.ld2sdRate.toNat ≠ 0 := by
  obtain ⟨endpoint, tokens, acc, remaining, params, happly⟩ := h
  rw [(initialized happly).rate]
  exact Nat.ne_of_gt (Nat.pow_pos (by decide))

end InitOFT

/-! ## `set_oft_config` -/

/-- `SetOFTConfigParams`. -/
inductive SetOFTConfigParams where
  | admin (admin : Pubkey)
  /-- the OApp delegate for the endpoint -/
  | delegate (delegate : Pubkey)
  | defaultFee (feeBps : UInt16)
  | paused (paused : Bool)
  | pauser (pauser : Option Pubkey)
  | unpauser (unpauser : Option Pubkey)
  deriving DecidableEq, Repr

namespace SetOFTConfig

/-- The accounts of `SetOFTConfig`. -/
structure Accounts where
  admin : LzAccount
  oftStore : LzAccount
  deriving DecidableEq, Repr

/-- The constraints of `SetOFTConfig`. -/
def tryAccounts (env : Externals) (n : Node) (acc : Accounts) : Result Unit := do
  require acc.admin.isSigner .constraint
  require (n.StoreAt env acc.oftStore ∧ acc.oftStore.isWritable) .constraint
  require (n.store.admin = acc.admin.pubkey) (.oft .unauthorized)

/-- `SetOFTConfig::apply`. -/
def apply (env : Externals) (endpoint : Endpoint) (n : Node) (acc : Accounts)
    (remaining : List LzAccount) (params : SetOFTConfigParams) : Result Node := do
  tryAccounts env n acc
  match params with
  | .admin admin => pure { n with store := { n.store with admin } }
  | .delegate delegate => do
      require (endpoint.setDelegate remaining delegate) .cpi
      pure n
  | .defaultFee feeBps => do
      require (feeBps < MAX_FEE_BASIS_POINTS) (.oft .invalidFee)
      pure { n with store := { n.store with defaultFeeBps := feeBps } }
  | .paused paused => pure { n with store := { n.store with paused } }
  | .pauser pauser => pure { n with store := { n.store with pauser } }
  | .unpauser unpauser => pure { n with store := { n.store with unpauser } }

/-- Only the store changes, and of it neither what `init_oft` fixed nor the
value locked. -/
structure Configured (n : Node) (acc : Accounts) (n' : Node) : Prop where
  signed : acc.admin.isSigner
  admin : n.store.admin = acc.admin.pubkey
  node : n' = { n with store := n'.store }
  origin : n'.store.origin = n.store.origin
  tvlLd : n'.store.tvlLd = n.store.tvlLd

theorem configured {env : Externals} {endpoint : Endpoint} {n n' : Node} {acc : Accounts}
    {remaining : List LzAccount} {params : SetOFTConfigParams}
    (h : apply env endpoint n acc remaining params = .ok n') : Configured n acc n' := by
  simp only [apply, tryAccounts, Except.bind_eq_ok, Except.require_eq_ok] at h
  obtain ⟨-, ⟨-, hsigned, -, -, hadmin⟩, h⟩ := h
  cases params with
  | delegate =>
      simp only [Except.bind_eq_ok, Except.pure_eq_ok] at h
      obtain ⟨-, -, rfl⟩ := h
      exact ⟨hsigned, hadmin, rfl, rfl, rfl⟩
  | defaultFee =>
      simp only [Except.bind_eq_ok, Except.pure_eq_ok] at h
      obtain ⟨-, -, rfl⟩ := h
      exact ⟨hsigned, hadmin, rfl, rfl, rfl⟩
  | admin | paused | pauser | unpauser =>
      rw [← Except.pure_eq_ok.mp h]
      exact ⟨hsigned, hadmin, rfl, rfl, rfl⟩

end SetOFTConfig

/-! ## `set_pause` -/

/-- `SetPauseParams`. -/
structure SetPauseParams where
  paused : Bool
  deriving DecidableEq, Repr

namespace SetPause

/-- The accounts of `SetPause`. -/
structure Accounts where
  /-- pauser or unpauser -/
  signer : LzAccount
  oftStore : LzAccount
  deriving DecidableEq, Repr

/-- `is_valid_signer`. -/
def isValidSigner (signer : Pubkey) (oftStore : OFTStore) (paused : Bool) : Bool :=
  if paused then oftStore.pauser = some signer else oftStore.unpauser = some signer

/-- `SetPause::apply`, after its constraints. -/
def apply (env : Externals) (n : Node) (acc : Accounts) (params : SetPauseParams) :
    Result Node := do
  require acc.signer.isSigner .constraint
  require (n.StoreAt env acc.oftStore ∧ acc.oftStore.isWritable) .constraint
  require (isValidSigner acc.signer.pubkey n.store params.paused) (.oft .unauthorized)
  pure { n with store := { n.store with paused := params.paused } }

theorem apply_eq_ok {env : Externals} {n n' : Node} {acc : Accounts} {params : SetPauseParams}
    (h : apply env n acc params = .ok n') :
    acc.signer.isSigner ∧ isValidSigner acc.signer.pubkey n.store params.paused ∧
      n' = { n with store := { n.store with paused := params.paused } } := by
  simp only [apply, Except.bind_eq_ok, Except.require_eq_ok, Except.pure_eq_ok] at h
  obtain ⟨-, hsigned, -, -, -, hvalid, rfl⟩ := h
  exact ⟨hsigned, hvalid, rfl⟩

end SetPause

/-! ## `set_peer_config` -/

/-- `RateLimitParams`. -/
structure RateLimitParams where
  refillPerSecond : Option UInt64
  capacity : Option UInt64
  deriving DecidableEq, Repr

/-- `PeerConfigParam`. -/
inductive PeerConfigParam where
  | peerAddress (peerAddress : FixedBytes 32)
  | feeBps (feeBps : Option UInt16)
  | enforcedOptions (send sendAndCall : List UInt8)
  | outboundRateLimit (params : Option RateLimitParams)
  | inboundRateLimit (params : Option RateLimitParams)
  deriving DecidableEq, Repr

/-- `SetPeerConfigParams`. -/
structure SetPeerConfigParams where
  remoteEid : UInt32
  config : PeerConfigParam
  deriving DecidableEq, Repr

namespace SetPeerConfig

/-- The accounts of `SetPeerConfig`. -/
structure Accounts where
  admin : LzAccount
  peer : LzAccount
  oftStore : LzAccount
  systemProgram : LzAccount
  deriving DecidableEq, Repr

/-- The constraints of `SetPeerConfig`.  The peer is created if there is none
yet; the bump is the one of `#[account(.., bump)]`. -/
def tryAccounts (env : Externals) (n : Node) (acc : Accounts) (params : SetPeerConfigParams) :
    Result (PeerConfig × UInt8) := do
  let (key, bump) := env.findProgramAddress (Node.peerSeeds n.key params.remoteEid) env.programId
  require (acc.admin.isSigner ∧ acc.admin.isWritable) .constraint
  require (acc.peer.pubkey = key ∧ acc.peer.isWritable) .constraint
  require (n.StoreAt env acc.oftStore) .constraint
  require (n.store.admin = acc.admin.pubkey) (.oft .unauthorized)
  require (acc.systemProgram.pubkey = env.systemProgramId) .constraint
  pure ((n.peers params.remoteEid).getD .zeroed, bump)

/-- `SetPeerConfig::update_rate_limiter`. -/
def updateRateLimiter (clock : Clock) (rateLimiter : Option RateLimiter)
    (params : Option RateLimitParams) : Result (Option RateLimiter) :=
  match params with
  | none => pure none
  | some param => do
      let limiter := rateLimiter.getD .default
      let limiter ← (match param.capacity with
        | some capacity => orFail (limiter.setCapacity clock capacity)
        | none => pure limiter)
      let limiter ← (match param.refillPerSecond with
        | some refillRate => orFail (limiter.setRate clock refillRate)
        | none => pure limiter)
      pure (some limiter)

/-- What each variant of the parameter does to the peer. -/
def update (env : Externals) (clock : Clock) (peer : PeerConfig) :
    PeerConfigParam → Result PeerConfig
  | .peerAddress peerAddress => pure { peer with peerAddress }
  | .feeBps feeBps => do
      require (feeBps.all (· < MAX_FEE_BASIS_POINTS)) (.oft .invalidFee)
      pure { peer with feeBps }
  | .enforcedOptions send sendAndCall => do
      env.assertType3 send
      env.assertType3 sendAndCall
      pure { peer with enforcedOptions := ⟨send, sendAndCall⟩ }
  | .outboundRateLimit params => do
      let outboundRateLimiter ← updateRateLimiter clock peer.outboundRateLimiter params
      pure { peer with outboundRateLimiter }
  | .inboundRateLimit params => do
      let inboundRateLimiter ← updateRateLimiter clock peer.inboundRateLimiter params
      pure { peer with inboundRateLimiter }

/-- `SetPeerConfig::apply`.  Anchor then writes the peer back, which fails
when the account has no room for it. -/
def apply (env : Externals) (clock : Clock) (n : Node) (acc : Accounts)
    (params : SetPeerConfigParams) : Result Node := do
  let (peer, bump) ← tryAccounts env n acc params
  let peer ← update env clock peer params.config
  let peer := { peer with bump }
  require (peer.serializedSize ≤ PeerConfig.INIT_SPACE) .accountDidNotSerialize
  pure (n.setPeer params.remoteEid peer)

/-- What a variant of the parameter made of a peer. -/
inductive Updated (env : Externals) (clock : Clock) (peer : PeerConfig) :
    PeerConfigParam → PeerConfig → Prop
  | peerAddress (peerAddress : FixedBytes 32) :
      Updated env clock peer (.peerAddress peerAddress) { peer with peerAddress }
  | feeBps {feeBps : Option UInt16} (valid : feeBps.all (· < MAX_FEE_BASIS_POINTS)) :
      Updated env clock peer (.feeBps feeBps) { peer with feeBps }
  | enforcedOptions {send sendAndCall : List UInt8} (sendType : env.assertType3 send = .ok ())
      (sendAndCallType : env.assertType3 sendAndCall = .ok ()) :
      Updated env clock peer (.enforcedOptions send sendAndCall)
        { peer with enforcedOptions := ⟨send, sendAndCall⟩ }
  | outboundRateLimit {params : Option RateLimitParams} {limiter : Option RateLimiter}
      (run : updateRateLimiter clock peer.outboundRateLimiter params = .ok limiter) :
      Updated env clock peer (.outboundRateLimit params)
        { peer with outboundRateLimiter := limiter }
  | inboundRateLimit {params : Option RateLimitParams} {limiter : Option RateLimiter}
      (run : updateRateLimiter clock peer.inboundRateLimiter params = .ok limiter) :
      Updated env clock peer (.inboundRateLimit params)
        { peer with inboundRateLimiter := limiter }

theorem updated {env : Externals} {clock : Clock} {old peer : PeerConfig} {config : PeerConfigParam}
    (h : update env clock old config = .ok peer) : Updated env clock old config peer := by
  cases config with
  | peerAddress =>
      rw [← Except.pure_eq_ok.mp h]
      exact .peerAddress _
  | feeBps =>
      simp only [update, Except.bind_eq_ok, Except.require_eq_ok, Except.pure_eq_ok] at h
      obtain ⟨-, hvalid, rfl⟩ := h
      exact .feeBps hvalid
  | enforcedOptions =>
      obtain ⟨⟨⟩, hsend, hrest⟩ := Except.bind_eq_ok.mp h
      obtain ⟨⟨⟩, hsendAndCall, hpeer⟩ := Except.bind_eq_ok.mp hrest
      rw [← Except.pure_eq_ok.mp hpeer]
      exact .enforcedOptions hsend hsendAndCall
  | outboundRateLimit =>
      obtain ⟨limiter, hrun, hpeer⟩ := Except.bind_eq_ok.mp h
      rw [← Except.pure_eq_ok.mp hpeer]
      exact .outboundRateLimit hrun
  | inboundRateLimit =>
      obtain ⟨limiter, hrun, hpeer⟩ := Except.bind_eq_ok.mp h
      rw [← Except.pure_eq_ok.mp hpeer]
      exact .inboundRateLimit hrun

/-- Only the peer of the given endpoint id changes: it is `peer` with the
bump of its address. -/
structure PeerSet (env : Externals) (clock : Clock) (n : Node) (acc : Accounts)
    (params : SetPeerConfigParams) (n' : Node) (peer : PeerConfig) : Prop where
  signed : acc.admin.isSigner
  admin : n.store.admin = acc.admin.pubkey
  updated : Updated env clock ((n.peers params.remoteEid).getD .zeroed) params.config peer
  node : n' = n.setPeer params.remoteEid
    { peer with bump := (env.findProgramAddress (Node.peerSeeds n.key params.remoteEid)
      env.programId).2 }

theorem peerSet {env : Externals} {clock : Clock} {n n' : Node} {acc : Accounts}
    {params : SetPeerConfigParams} (h : apply env clock n acc params = .ok n') :
    ∃ peer, PeerSet env clock n acc params n' peer := by
  simp only [apply, tryAccounts, Except.bind_eq_ok, Except.require_eq_ok,
    Except.pure_eq_ok] at h
  obtain ⟨⟨old, bump⟩, ⟨-, hsigned, -, -, -, -, -, hadmin, -, -, hpair⟩, peer, hupdate, -, -,
    rfl⟩ := h
  obtain ⟨rfl, rfl⟩ := Prod.mk.inj hpair
  exact ⟨peer, hsigned.1, hadmin, updated hupdate, rfl⟩

end SetPeerConfig

/-! ## `withdraw_fee` -/

/-- `WithdrawFeeParams`. -/
structure WithdrawFeeParams where
  feeLd : UInt64
  deriving DecidableEq, Repr

namespace WithdrawFee

/-- The accounts of `WithdrawFee`. -/
structure Accounts where
  admin : LzAccount
  oftStore : LzAccount
  tokenMint : LzAccount
  tokenEscrow : LzAccount
  tokenDest : LzAccount
  tokenProgram : LzAccount
  deriving DecidableEq, Repr

/-- The constraints of `WithdrawFee`; the escrow account they find. -/
def tryAccounts (env : Externals) (n : Node) (acc : Accounts) : Result TokenAccount := do
  require acc.admin.isSigner .constraint
  let tokenEscrow ← okOr (n.tokens.accounts acc.tokenEscrow.pubkey) .constraint
  require (n.StoreAt env acc.oftStore) .constraint
  require (n.store.admin = acc.admin.pubkey) (.oft .unauthorized)
  require (n.MintAt acc.tokenMint acc.tokenProgram) .constraint
  require (n.EscrowAt acc.tokenEscrow ∧ acc.tokenEscrow.isWritable) .constraint
  require ((n.tokens.accounts acc.tokenDest.pubkey).isSome ∧ acc.tokenDest.isWritable) .constraint
  require (env.isTokenProgram acc.tokenProgram.pubkey) .constraint
  pure tokenEscrow

/-- `WithdrawFee::apply`. -/
def apply (env : Externals) (clock : Clock) (n : Node) (acc : Accounts)
    (params : WithdrawFeeParams) : Result Node := do
  let tokenEscrow ← tryAccounts env n acc
  let available ← orAbort (tokenEscrow.amount.checkedSub n.store.tvlLd)
  require (params.feeLd ≤ available) (.oft .invalidFee)
  let tokens ← okOr (env.tokenProgram.transferChecked n.tokens clock.epoch acc.tokenEscrow.pubkey
    acc.tokenDest.pubkey acc.oftStore.pubkey params.feeLd n.tokens.mint.decimals) .cpi
  pure { n with tokens }

/-- Tokens leave the escrow, no more of them than it holds beyond the value
locked; nothing else of the program changes. -/
structure Withdrawn (n : Node) (acc : Accounts) (clock : Clock) (params : WithdrawFeeParams)
    (n' : Node) : Prop where
  signed : acc.admin.isSigner
  admin : n.store.admin = acc.admin.pubkey
  escrow : acc.tokenEscrow.pubkey = n.store.tokenEscrow
  covered : n.store.tvlLd.toNat + params.feeLd.toNat ≤ n.tokens.balance n.store.tokenEscrow
  node : n' = { n with tokens := n'.tokens }
  moved : n.tokens.Transferred n'.tokens clock.epoch n.store.tokenEscrow acc.tokenDest.pubkey
    params.feeLd.toNat

theorem withdrawn {env : Externals} {clock : Clock} {n n' : Node} {acc : Accounts}
    {params : WithdrawFeeParams} (h : apply env clock n acc params = .ok n') :
    Withdrawn n acc clock params n' := by
  simp only [apply, tryAccounts, Except.bind_eq_ok, Except.require_eq_ok, Except.okOr_eq_ok,
    Except.pure_eq_ok, orAbort_eq_ok, UInt64.checkedSub_eq_some] at h
  obtain ⟨escrow, ⟨-, hsigned, escrow', hfound, -, -, -, hadmin, -, -, -, hescrow, -, -, -, -,
    rfl⟩, available, hsub, -, hfee, tokens, htransfer, rfl⟩ := h
  have haddress : acc.tokenEscrow.pubkey = n.store.tokenEscrow := hescrow.1.1
  rw [haddress] at hfound htransfer
  refine ⟨hsigned, hadmin, haddress, ?_, rfl, env.tokenProgram.transferred htransfer⟩
  rw [Tokens.balance_of_accounts hfound]
  rw [UInt64.le_iff_toNat_le] at hfee
  omega

end WithdrawFee

end CrossChain
