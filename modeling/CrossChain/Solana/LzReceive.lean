import CrossChain.Solana.Amounts
import CrossChain.Solana.MsgCodec
import CrossChain.Solana.Node

/-!
# CrossChain.Solana.LzReceive

`lz_receive` (instructions/lz_receive.rs): clear a message with the endpoint
and pay out the tokens it carries.

The executor passes the accounts as a list, which `Accounts.ofList` reads in
order.  `deliver` is the handler up to the `send_compose` call, and
`Delivered` is what it says of the state before and after it.
-/

namespace CrossChain

/-- `LzReceiveParams` (`oapp` crate); nothing here reads its `extra_data`. -/
structure LzReceiveParams where
  srcEid : UInt32
  sender : FixedBytes 32
  nonce : UInt64
  guid : FixedBytes 32
  message : List UInt8
  deriving DecidableEq, Repr

/-- `OFTReceived` (events.rs). -/
structure OFTReceived where
  guid : FixedBytes 32
  srcEid : UInt32
  toAddress : Pubkey
  amountReceivedLd : UInt64
  deriving DecidableEq, Repr

namespace LzReceive

/-- The accounts of `LzReceive`. -/
structure Accounts where
  payer : LzAccount
  peer : LzAccount
  oftStore : LzAccount
  tokenEscrow : LzAccount
  toAddress : LzAccount
  tokenDest : LzAccount
  tokenMint : LzAccount
  mintAuthority : Option LzAccount
  tokenProgram : LzAccount
  associatedTokenProgram : LzAccount
  systemProgram : LzAccount
  eventAuthority : LzAccount
  program : LzAccount
  deriving DecidableEq, Repr

/-- Read the accounts off a list, in order; the rest are the remaining
accounts.  The program's own id stands for an optional account that is not
given. -/
def Accounts.ofList (env : Externals) : List LzAccount → Option (Accounts × List LzAccount)
  | payer :: peer :: oftStore :: tokenEscrow :: toAddress :: tokenDest :: tokenMint ::
      mintAuthority :: tokenProgram :: associatedTokenProgram :: systemProgram ::
      eventAuthority :: program :: remaining =>
    some ({
      payer, peer, oftStore, tokenEscrow, toAddress, tokenDest, tokenMint
      mintAuthority := if mintAuthority.pubkey = env.programId then none else some mintAuthority
      tokenProgram, associatedTokenProgram, systemProgram, eventAuthority, program }, remaining)
  | _ => none

/-- `init_if_needed` on `token_dest`: the associated token account of
`to_address`, opened at the payer's cost if there is none yet. -/
def openTokenDest (env : Externals) (n : Node) (acc : Accounts) : Result Tokens := do
  require (acc.tokenDest.isWritable ∧ acc.tokenDest.pubkey = env.associatedTokenAddress
    acc.toAddress.pubkey acc.tokenMint.pubkey acc.tokenProgram.pubkey) .constraint
  match n.tokens.accounts acc.tokenDest.pubkey with
  | some dest => do
      require (dest.authority = acc.toAddress.pubkey) .constraint
      pure n.tokens
  | none => okOr (env.tokenProgram.create n.tokens acc.payer.pubkey acc.tokenDest.pubkey
      acc.toAddress.pubkey) .cpi

/-- The constraints of `LzReceive`: the accounts are loaded, `token_dest` is
opened, and the rest is checked in the order of the accounts.  Returns the
peer it finds, and the ledger with `token_dest` in it. -/
def tryAccounts (env : Externals) (n : Node) (acc : Accounts) (params : LzReceiveParams) :
    Result (PeerConfig × Tokens) := do
  require acc.payer.isSigner .constraint
  let peer ← okOr (n.peers params.srcEid) .constraint
  let tokens ← openTokenDest env n acc
  require acc.payer.isWritable .constraint
  require (n.PeerAt env params.srcEid peer acc.peer ∧ acc.peer.isWritable) .constraint
  require (peer.peerAddress = params.sender) (.oft .invalidSender)
  require (n.StoreAt env acc.oftStore ∧ acc.oftStore.isWritable) .constraint
  require (n.EscrowAt acc.tokenEscrow ∧ acc.tokenEscrow.isWritable) .constraint
  let sendTo ← orAbort (MsgCodec.sendTo params.message)
  require (acc.toAddress.pubkey = sendTo) (.oft .invalidTokenDest)
  require (n.MintAt acc.tokenMint acc.tokenProgram ∧ acc.tokenMint.isWritable) .constraint
  require (∀ a ∈ acc.mintAuthority, n.tokens.mint.mintAuthority = some a.pubkey)
    (.oft .invalidMintAuthority)
  require (env.isTokenProgram acc.tokenProgram.pubkey) .constraint
  require (acc.associatedTokenProgram.pubkey = env.associatedTokenId) .constraint
  require (acc.systemProgram.pubkey = env.systemProgramId) .constraint
  require (EventCpi env acc.eventAuthority acc.program) .constraint
  pure (peer, tokens)

/-- The branch on the store's type: unlock the tokens from escrow, or mint
them.  Returns the new `tvl_ld` and ledger and the amount that arrives. -/
def releaseTokens (env : Externals) (n : Node) (tokens : Tokens) (acc : Accounts) (clock : Clock)
    (amountReceivedLd : UInt64) : Result (UInt64 × Tokens × UInt64) :=
  if n.store.oftType = .adapter then do
    let tvlLd ← orAbort (n.store.tvlLd.checkedSub amountReceivedLd)
    let tokens ← okOr (env.tokenProgram.transferChecked tokens clock.epoch acc.tokenEscrow.pubkey
      acc.tokenDest.pubkey acc.oftStore.pubkey amountReceivedLd tokens.mint.decimals) .cpi
    -- the amount after the transfer fee
    let postFeeLd ← getPostFeeAmountLd tokens.mint clock amountReceivedLd
    pure (tvlLd, tokens, postFeeLd)
  else
    match acc.mintAuthority with
    | some mintAuthority => do
        let tokens ← okOr (env.tokenProgram.mintTo tokens acc.tokenDest.pubkey
          mintAuthority.pubkey acc.oftStore.pubkey amountReceivedLd) .cpi
        pure (n.store.tvlLd, tokens, amountReceivedLd)
    | none => .error (.oft .invalidMintAuthority)

/-- A delivery that only `send_compose` can still fail: the state it leaves,
what it cleared, the compose call to make, if any, and its event. -/
structure Outcome where
  node : Node
  clear : ClearParams
  compose : Option SendComposeParams
  event : OFTReceived

/-- `LzReceive::apply` up to the `send_compose` call. -/
def deliver (env : Externals) (clock : Clock) (endpoint : Endpoint) (n : Node) (acc : Accounts)
    (remaining : List LzAccount) (params : LzReceiveParams) : Result Outcome := do
  let (peer, tokens) ← tryAccounts env n acc params
  require (n.store.paused = false) (.oft .paused)
  -- `&ctx.remaining_accounts[0..Clear::MIN_ACCOUNTS_LEN]`
  require (env.clearMinAccountsLen ≤ remaining.length) .abort
  let clear := {
    receiver := acc.oftStore.pubkey
    srcEid := params.srcEid
    sender := params.sender
    nonce := params.nonce
    guid := params.guid
    message := params.message }
  require (endpoint.clear (remaining.take env.clearMinAccountsLen) clear) .cpi
  let amountSd ← orAbort (MsgCodec.amountSd params.message)
  let amountLd ← n.store.sd2ld amountSd
  let inbound ← onLimiter peer.inboundRateLimiter (·.tryConsume clock amountLd)
  let outbound ← onLimiter peer.outboundRateLimiter (·.refill clock amountLd)
  let (tvlLd, tokens, amountReceivedLd) ← releaseTokens env n tokens acc clock amountLd
  let compose := (MsgCodec.composeMsg params.message).map fun message => {
    toAddress := acc.toAddress.pubkey
    guid := params.guid
    index := 0
    message := ComposeMsgCodec.encode params.nonce params.srcEid amountReceivedLd message }
  let node := { n with store := { n.store with tvlLd }, tokens }
  pure {
    node := node.setPeer params.srcEid
      { peer with outboundRateLimiter := outbound, inboundRateLimiter := inbound }
    clear, compose
    event := ⟨params.guid, params.srcEid, acc.toAddress.pubkey, amountReceivedLd⟩ }

/-- `LzReceive::apply`. -/
def apply (env : Externals) (clock : Clock) (endpoint : Endpoint) (n : Node)
    (accounts : List LzAccount) (params : LzReceiveParams) : Result Outcome := do
  let (acc, remaining) ← okOr (Accounts.ofList env accounts) .constraint
  let out ← deliver env clock endpoint n acc remaining params
  match out.compose with
  | some compose =>
      require (endpoint.sendCompose (remaining.drop env.clearMinAccountsLen) compose) .cpi
  | none => pure ()
  pure out

/-! ## what a delivery does -/

/-- How `openTokenDest` left the ledger: `token_dest` is in the recipient's
hands, where it was if it existed, and nothing else is touched. -/
structure DestOpened (n : Node) (acc : Accounts) (tokens : Tokens) : Prop where
  mint : tokens.mint = n.tokens.mint
  balance : ∀ k, tokens.balance k = n.tokens.balance k
  owner : ∀ k ∈ n.tokens.hands acc.tokenDest.pubkey, k = acc.toAddress.pubkey
  hands : ∀ k, tokens.hands k =
    if k = acc.tokenDest.pubkey then some acc.toAddress.pubkey else n.tokens.hands k

theorem destOpened {env : Externals} {n : Node} {acc : Accounts} {tokens : Tokens}
    (h : openTokenDest env n acc = .ok tokens) : DestOpened n acc tokens := by
  simp only [openTokenDest, Except.bind_eq_ok, Except.require_eq_ok] at h
  obtain ⟨-, -, h⟩ := h
  split at h
  · next dest hdest =>
    simp only [Except.bind_eq_ok, Except.require_eq_ok, Except.pure_eq_ok] at h
    obtain ⟨-, howner, rfl⟩ := h
    have hhands : n.tokens.hands acc.tokenDest.pubkey = some acc.toAddress.pubkey := by
      rw [Tokens.hands, hdest, ← howner]
      rfl
    refine ⟨rfl, fun _ => rfl, fun k hk => ?_, fun k => ?_⟩
    · exact Option.some.inj (Eq.symm (hhands.symm.trans hk))
    · split
      · next hk => rw [hk, hhands]
      · rfl
  · next hnone =>
    have hopened := env.tokenProgram.opened hnone (Except.okOr_eq_ok.mp h)
    refine ⟨hopened.mint, (hopened.opened hnone).balance, fun k hk => ?_, hopened.hands⟩
    rw [Tokens.hands, hnone] at hk
    contradiction

theorem DestOpened.opened {n : Node} {acc : Accounts} {tokens : Tokens}
    (h : DestOpened n acc tokens) : n.tokens.Opened tokens := ⟨h.mint, h.balance⟩

/-- What the constraints establish: among them, that the sender is the one
that the peer names, and that `token_dest` belongs to the recipient. -/
structure Constrained (env : Externals) (n : Node) (acc : Accounts) (params : LzReceiveParams)
    (peer : PeerConfig) (tokens : Tokens) : Prop where
  found : n.peers params.srcEid = some peer
  sender : peer.peerAddress = params.sender
  opens : n.tokens.Opened tokens
  store : acc.oftStore.pubkey = n.key
  escrow : acc.tokenEscrow.pubkey = n.store.tokenEscrow
  dest : ∃ sendTo, MsgCodec.sendTo params.message = some sendTo ∧ acc.tokenDest.pubkey =
    env.associatedTokenAddress sendTo n.store.tokenMint n.tokens.mint.tokenProgram

theorem tokenDest_of_open {env : Externals} {n : Node} {acc : Accounts} {tokens : Tokens}
    (h : openTokenDest env n acc = .ok tokens) : acc.tokenDest.pubkey =
      env.associatedTokenAddress acc.toAddress.pubkey acc.tokenMint.pubkey
        acc.tokenProgram.pubkey := by
  simp only [openTokenDest, Except.bind_eq_ok, Except.require_eq_ok] at h
  obtain ⟨-, hdest, -⟩ := h
  exact hdest.2

theorem constrained {env : Externals} {n : Node} {acc : Accounts} {params : LzReceiveParams}
    {peer : PeerConfig} {tokens : Tokens}
    (h : tryAccounts env n acc params = .ok (peer, tokens)) :
    Constrained env n acc params peer tokens := by
  simp only [tryAccounts, Except.bind_eq_ok, Except.require_eq_ok, Except.okOr_eq_ok,
    Except.pure_eq_ok, orAbort_eq_ok, Prod.mk.injEq] at h
  obtain ⟨-, -, peer', hfound, tokens', hopen, -, -, -, -, -, hsender, -, hstore, -, hescrow,
    sendTo, hto, -, hrecipient, -, hmint, -, -, -, -, -, -, -, -, -, -, rfl, rfl⟩ := h
  refine ⟨hfound, hsender, (destOpened hopen).opened, hstore.1.1, hescrow.1.1, sendTo, hto, ?_⟩
  rw [tokenDest_of_open hopen, hrecipient, hmint.1.1, hmint.1.2]

/-- The recipient is the one the message names. -/
theorem sendTo_of_tryAccounts {env : Externals} {n : Node} {acc : Accounts}
    {params : LzReceiveParams} {r : PeerConfig × Tokens}
    (h : tryAccounts env n acc params = .ok r) :
    MsgCodec.sendTo params.message = some acc.toAddress.pubkey := by
  simp only [tryAccounts, Except.bind_eq_ok, Except.require_eq_ok, Except.okOr_eq_ok,
    orAbort_eq_ok] at h
  obtain ⟨-, -, -, -, -, -, -, -, -, -, -, -, -, -, -, -, sendTo, hto, -, hrecipient, -⟩ := h
  rw [hto, hrecipient]

/-- How `releaseTokens` moved the tokens; `tokens` is the ledger before. -/
structure Released (n : Node) (tokens : Tokens) (acc : Accounts) (clock : Clock)
    (amountLd tvlLd : UInt64) (tokens' : Tokens) (amountReceivedLd : UInt64) : Prop where
  adapter : n.store.oftType = .adapter →
    tvlLd.toNat + amountLd.toNat = n.store.tvlLd.toNat ∧
      tokens.Transferred tokens' clock.epoch acc.tokenEscrow.pubkey acc.tokenDest.pubkey
        amountLd.toNat ∧
      getPostFeeAmountLd tokens.mint clock amountLd = .ok amountReceivedLd
  native : n.store.oftType = .native → tvlLd = n.store.tvlLd ∧
    tokens.Minted tokens' acc.tokenDest.pubkey amountLd.toNat ∧ amountReceivedLd = amountLd

theorem released {env : Externals} {n : Node} {tokens tokens' : Tokens} {acc : Accounts}
    {clock : Clock} {amountLd tvlLd amountReceivedLd : UInt64}
    (h : releaseTokens env n tokens acc clock amountLd = .ok (tvlLd, tokens', amountReceivedLd)) :
    Released n tokens acc clock amountLd tvlLd tokens' amountReceivedLd := by
  unfold releaseTokens at h
  split at h
  · next hadapter =>
    simp only [Except.bind_eq_ok, Except.pure_eq_ok, Except.okOr_eq_ok, orAbort_eq_ok,
      UInt64.checkedSub_eq_some, Prod.mk.injEq] at h
    obtain ⟨tvlLd', htvl, moved, htransfer, postFeeLd, hpost, rfl, rfl, rfl⟩ := h
    have hmoved := env.tokenProgram.transferred htransfer
    refine ⟨fun _ => ⟨htvl, hmoved, hmoved.mint ▸ hpost⟩, fun hnative => ?_⟩
    rw [hadapter] at hnative
    contradiction
  · next hnative =>
    refine ⟨fun hadapter => absurd hadapter hnative, fun _ => ?_⟩
    split at h
    · simp only [Except.bind_eq_ok, Except.okOr_eq_ok, Except.pure_eq_ok, Prod.mk.injEq] at h
      obtain ⟨moved, hmint, rfl, rfl, rfl⟩ := h
      exact ⟨rfl, env.tokenProgram.minted hmint, rfl⟩
    · contradiction

/-- What a delivery says of the state before and after it.  `peer` is the
peer it found, `outbound` and `inbound` are the limiters it left, `opened`
the ledger once `token_dest` was there. -/
structure Delivered (env : Externals) (clock : Clock) (endpoint : Endpoint) (n : Node)
    (acc : Accounts) (remaining : List LzAccount) (params : LzReceiveParams) (out : Outcome)
    (peer : PeerConfig) (outbound inbound : Option RateLimiter) (opened : Tokens)
    (amountSd amountLd : UInt64) : Prop where
  running : n.store.paused = false
  escrow : acc.tokenEscrow.pubkey = n.store.tokenEscrow
  found : n.peers params.srcEid = some peer
  sender : peer.peerAddress = params.sender
  opens : n.tokens.Opened opened
  clear : out.clear =
    ⟨n.key, params.srcEid, params.sender, params.nonce, params.guid, params.message⟩
  cleared : endpoint.clear (remaining.take env.clearMinAccountsLen) out.clear = true
  decoded : MsgCodec.amountSd params.message = some amountSd
  scaled : amountSd.toNat * n.store.ld2sdRate.toNat = amountLd.toNat
  consumed : onLimiter peer.inboundRateLimiter (·.tryConsume clock amountLd) = .ok inbound
  refilled : onLimiter peer.outboundRateLimiter (·.refill clock amountLd) = .ok outbound
  released : Released n opened acc clock amountLd out.node.store.tvlLd out.node.tokens
    out.event.amountReceivedLd
  node : out.node = Node.setPeer
    { n with store := { n.store with tvlLd := out.node.store.tvlLd }, tokens := out.node.tokens }
    params.srcEid { peer with outboundRateLimiter := outbound, inboundRateLimiter := inbound }
  compose : out.compose = (MsgCodec.composeMsg params.message).map fun message =>
    ⟨acc.toAddress.pubkey, params.guid, 0, ComposeMsgCodec.encode params.nonce params.srcEid
      out.event.amountReceivedLd message⟩
  event : out.event =
    ⟨params.guid, params.srcEid, acc.toAddress.pubkey, out.event.amountReceivedLd⟩

theorem delivered {env : Externals} {clock : Clock} {endpoint : Endpoint} {n : Node}
    {acc : Accounts} {remaining : List LzAccount} {params : LzReceiveParams} {out : Outcome}
    (h : deliver env clock endpoint n acc remaining params = .ok out) :
    ∃ peer outbound inbound opened amountSd amountLd, Delivered env clock endpoint n acc
      remaining params out peer outbound inbound opened amountSd amountLd := by
  simp only [deliver, Except.bind_eq_ok, Except.require_eq_ok, Except.pure_eq_ok, orAbort_eq_ok,
    OFTStore.sd2ld_eq_ok] at h
  obtain ⟨⟨peer, opened⟩, hacc, -, hrunning, -, -, -, hclear, amountSd, hsd, amountLd, hld, inbound,
    hconsumed, outbound, hrefilled, ⟨tvlLd, tokens, received⟩, hrelease, rfl⟩ := h
  have hconstrained := constrained hacc
  exact ⟨peer, outbound, inbound, opened, amountSd, amountLd, {
    running := hrunning
    escrow := hconstrained.escrow
    found := hconstrained.found
    sender := hconstrained.sender
    opens := hconstrained.opens
    clear := by rw [hconstrained.store]
    cleared := hclear
    decoded := hsd
    scaled := hld
    consumed := hconsumed
    refilled := hrefilled
    released := LzReceive.released hrelease
    node := rfl
    compose := rfl
    event := rfl }⟩

/-- A successful `apply` is a delivery to the listed accounts, with its
compose call, if any, taken. -/
theorem apply_eq_ok {env : Externals} {clock : Clock} {endpoint : Endpoint} {n : Node}
    {accounts : List LzAccount} {params : LzReceiveParams} {out : Outcome}
    (h : apply env clock endpoint n accounts params = .ok out) :
    ∃ acc remaining, Accounts.ofList env accounts = some (acc, remaining) ∧
      deliver env clock endpoint n acc remaining params = .ok out := by
  simp only [apply, Except.bind_eq_ok, Except.okOr_eq_ok] at h
  obtain ⟨⟨acc, remaining⟩, hlist, out', hdeliver, h⟩ := h
  refine ⟨acc, remaining, hlist, ?_⟩
  split at h
  · obtain ⟨-, -, hout⟩ := Except.bind_eq_ok.mp h
    rwa [← Except.pure_eq_ok.mp hout]
  · rwa [← Except.pure_eq_ok.mp h]

end LzReceive

end CrossChain
