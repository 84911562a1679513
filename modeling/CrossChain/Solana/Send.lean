import CrossChain.Solana.Amounts
import CrossChain.Solana.MsgCodec
import CrossChain.Solana.Node

/-!
# CrossChain.Solana.Send

`send` (instructions/send.rs): take the tokens of a transfer from their owner
and hand the endpoint a message that says so.

`prepare` is the handler up to the endpoint call, so that a statement can be
about sends that pass the program's own checks, whatever the endpoint then
answers.  `Prepared` is what a preparation says of the state before and
after it; every other module reads a send through it.
-/

namespace CrossChain

/-- `SendParams`. -/
structure SendParams where
  dstEid : UInt32
  toAddress : FixedBytes 32
  amountLd : UInt64
  minAmountLd : UInt64
  options : List UInt8
  composeMsg : Option (List UInt8)
  nativeFee : UInt64
  lzTokenFee : UInt64
  deriving DecidableEq, Repr

/-- `OFTReceipt` (instructions/quote_oft.rs). -/
structure OFTReceipt where
  amountSentLd : UInt64
  amountReceivedLd : UInt64
  deriving DecidableEq, Repr

/-- `OFTSent` (events.rs). -/
structure OFTSent where
  guid : FixedBytes 32
  dstEid : UInt32
  fromAddress : Pubkey
  amountSentLd : UInt64
  amountReceivedLd : UInt64
  deriving DecidableEq, Repr

namespace Send

/-- The accounts of `Send`. -/
structure Accounts where
  signer : LzAccount
  peer : LzAccount
  oftStore : LzAccount
  tokenSource : LzAccount
  tokenEscrow : LzAccount
  tokenMint : LzAccount
  tokenProgram : LzAccount
  eventAuthority : LzAccount
  program : LzAccount
  deriving DecidableEq, Repr

/-- The constraints of `Send`, in the order of its accounts; the peer they
find. -/
def tryAccounts (env : Externals) (n : Node) (acc : Accounts) (params : SendParams) :
    Result PeerConfig := do
  require acc.signer.isSigner .constraint
  let peer ← okOr (n.peers params.dstEid) .constraint
  require (n.PeerAt env params.dstEid peer acc.peer ∧ acc.peer.isWritable) .constraint
  require (n.StoreAt env acc.oftStore ∧ acc.oftStore.isWritable) .constraint
  require (n.TokenAccountOf acc.signer.pubkey acc.tokenSource ∧ acc.tokenSource.isWritable)
    .constraint
  require (n.EscrowAt acc.tokenEscrow ∧ acc.tokenEscrow.isWritable) .constraint
  require (n.MintAt acc.tokenMint acc.tokenProgram ∧ acc.tokenMint.isWritable) .constraint
  require (env.isTokenProgram acc.tokenProgram.pubkey) .constraint
  require (EventCpi env acc.eventAuthority acc.program) .constraint
  pure peer

/-- The branch on the store's type: lock the tokens in escrow, or burn them
and move the fee to escrow.  Returns the new `tvl_ld` and ledger. -/
def takeTokens (env : Externals) (n : Node) (acc : Accounts) (epoch : UInt64)
    (amountSentLd amountReceivedLd oftFeeLd : UInt64) : Result (UInt64 × Tokens) :=
  if n.store.oftType = .adapter then do
    let tvlLd ← orAbort (n.store.tvlLd.checkedAdd amountReceivedLd)
    let tokens ← okOr (env.tokenProgram.transferChecked n.tokens epoch acc.tokenSource.pubkey
      acc.tokenEscrow.pubkey acc.signer.pubkey amountSentLd n.tokens.mint.decimals) .cpi
    pure (tvlLd, tokens)
  else do
    let burnLd ← orAbort (amountSentLd.checkedSub oftFeeLd)
    let burnt ← okOr (env.tokenProgram.burn n.tokens acc.tokenSource.pubkey acc.signer.pubkey
      burnLd) .cpi
    if 0 < oftFeeLd then
      let tokens ← okOr (env.tokenProgram.transferChecked burnt epoch acc.tokenSource.pubkey
        acc.tokenEscrow.pubkey acc.signer.pubkey oftFeeLd n.tokens.mint.decimals) .cpi
      pure (n.store.tvlLd, tokens)
    else pure (n.store.tvlLd, burnt)

/-- A send that only the endpoint can still fail: the state it leaves, the
call to make, the receipt, and the handler's `oft_fee_ld`. -/
structure Outcome where
  node : Node
  request : EndpointSendParams
  receipt : OFTReceipt
  oftFeeLd : UInt64

/-- `Send::apply` up to the endpoint call. -/
def prepare (env : Externals) (clock : Clock) (n : Node) (acc : Accounts)
    (remaining : List LzAccount) (params : SendParams) : Result Outcome := do
  let peer ← tryAccounts env n acc params
  require (n.store.paused = false) (.oft .paused)
  let (amountSentLd, amountReceivedLd, oftFeeLd) ←
    computeFeeAndAdjustAmount params.amountLd n.store n.tokens.mint clock peer.feeBps
  require (params.minAmountLd ≤ amountReceivedLd) (.oft .slippageExceeded)
  let outbound ← onLimiter peer.outboundRateLimiter (·.tryConsume clock amountReceivedLd)
  let inbound ← onLimiter peer.inboundRateLimiter (·.refill clock amountReceivedLd)
  let (tvlLd, tokens) ←
    takeTokens env n acc clock.epoch amountSentLd amountReceivedLd oftFeeLd
  let senderAcc ← orAbort remaining[1]?
  require (acc.oftStore.pubkey = senderAcc.pubkey) (.oft .invalidSender)
  let amountSd ← n.store.ld2sd amountReceivedLd
  let options ← peer.enforcedOptions.combineOptions env params.composeMsg params.options
  let node := { n with store := { n.store with tvlLd }, tokens }
  pure {
    node := node.setPeer params.dstEid
      { peer with outboundRateLimiter := outbound, inboundRateLimiter := inbound }
    request := {
      dstEid := params.dstEid
      receiver := peer.peerAddress
      message := MsgCodec.encode params.toAddress amountSd acc.signer.pubkey params.composeMsg
      options
      nativeFee := params.nativeFee
      lzTokenFee := params.lzTokenFee }
    receipt := { amountSentLd, amountReceivedLd }
    oftFeeLd }

/-- `Send::apply`. -/
def apply (env : Externals) (clock : Clock) (endpoint : Endpoint) (n : Node) (acc : Accounts)
    (remaining : List LzAccount) (params : SendParams) :
    Result (Outcome × MessagingReceipt × OFTSent) := do
  let out ← prepare env clock n acc remaining params
  let msgReceipt ← okOr (endpoint.send remaining out.request) .cpi
  let event := {
    guid := msgReceipt.guid
    dstEid := params.dstEid
    fromAddress := acc.tokenSource.pubkey
    amountSentLd := out.receipt.amountSentLd
    amountReceivedLd := out.receipt.amountReceivedLd }
  pure (out, msgReceipt, event)

/-! ## what a send does -/

/-- What the constraints establish. -/
structure Constrained (n : Node) (acc : Accounts) (params : SendParams) (peer : PeerConfig) :
    Prop where
  signed : acc.signer.isSigner
  found : n.peers params.dstEid = some peer
  source : n.TokenAccountOf acc.signer.pubkey acc.tokenSource
  escrow : n.EscrowAt acc.tokenEscrow

theorem constrained {env : Externals} {n : Node} {acc : Accounts} {params : SendParams}
    {peer : PeerConfig} (h : tryAccounts env n acc params = .ok peer) :
    Constrained n acc params peer := by
  simp only [tryAccounts, Except.bind_eq_ok, Except.require_eq_ok, Except.okOr_eq_ok,
    Except.pure_eq_ok] at h
  obtain ⟨-, hsigned, peer', hfound, -, -, -, -, -, hsource, -, hescrow, -, -, -, -, -, -, rfl⟩ := h
  exact ⟨hsigned, hfound, hsource.1, hescrow.1⟩

/-- How `takeTokens` moved the tokens. -/
structure Taken (n : Node) (acc : Accounts) (epoch : UInt64)
    (amountSentLd amountReceivedLd oftFeeLd tvlLd : UInt64) (tokens : Tokens) : Prop where
  adapter : n.store.oftType = .adapter →
    tvlLd.toNat = n.store.tvlLd.toNat + amountReceivedLd.toNat ∧
      n.tokens.Transferred tokens epoch acc.tokenSource.pubkey acc.tokenEscrow.pubkey
        amountSentLd.toNat
  native : n.store.oftType = .native → tvlLd = n.store.tvlLd ∧
    ∃ burnt burnLd, burnLd + oftFeeLd.toNat = amountSentLd.toNat ∧
      n.tokens.Burned burnt acc.tokenSource.pubkey burnLd ∧
      (oftFeeLd.toNat = 0 ∧ tokens = burnt ∨
        burnt.Transferred tokens epoch acc.tokenSource.pubkey acc.tokenEscrow.pubkey
          oftFeeLd.toNat)

theorem taken {env : Externals} {n : Node} {acc : Accounts}
    {epoch sent received fee tvlLd : UInt64} {tokens : Tokens}
    (h : takeTokens env n acc epoch sent received fee = .ok (tvlLd, tokens)) :
    Taken n acc epoch sent received fee tvlLd tokens := by
  unfold takeTokens at h
  split at h
  · next hadapter =>
    simp only [Except.bind_eq_ok, Except.pure_eq_ok, Except.okOr_eq_ok, orAbort_eq_ok,
      UInt64.checkedAdd_eq_some, Prod.mk.injEq] at h
    obtain ⟨tvlLd', htvl, tokens', htransfer, rfl, rfl⟩ := h
    refine ⟨fun _ => ⟨htvl.symm, env.tokenProgram.transferred htransfer⟩, fun hnative => ?_⟩
    rw [hadapter] at hnative
    contradiction
  · next hnative =>
    refine ⟨fun hadapter => absurd hadapter hnative, fun _ => ?_⟩
    simp only [Except.bind_eq_ok, Except.okOr_eq_ok, orAbort_eq_ok,
      UInt64.checkedSub_eq_some] at h
    obtain ⟨burnLd, hsub, burnt, hburn, h⟩ := h
    split at h
    · simp only [Except.bind_eq_ok, Except.okOr_eq_ok, Except.pure_eq_ok, Prod.mk.injEq] at h
      obtain ⟨tokens', htransfer, rfl, rfl⟩ := h
      exact ⟨rfl, burnt, burnLd.toNat, hsub, env.tokenProgram.burned hburn,
        .inr (env.tokenProgram.transferred htransfer)⟩
    · next hzero =>
      simp only [Except.pure_eq_ok, Prod.mk.injEq] at h
      obtain ⟨rfl, rfl⟩ := h
      have hfee : fee.toNat = 0 := by
        rw [UInt64.lt_iff_toNat_lt] at hzero
        simp only [UInt64.toNat_zero] at hzero
        omega
      exact ⟨rfl, burnt, burnLd.toNat, hsub, env.tokenProgram.burned hburn, .inl ⟨hfee, rfl⟩⟩

/-- What a prepared send says of the state before and after it.  `peer` is
the peer it found, `outbound` and `inbound` are the limiters it left. -/
structure Prepared (env : Externals) (clock : Clock) (n : Node) (acc : Accounts)
    (params : SendParams) (out : Outcome) (peer : PeerConfig)
    (outbound inbound : Option RateLimiter) : Prop where
  signed : acc.signer.isSigner
  running : n.store.paused = false
  escrow : acc.tokenEscrow.pubkey = n.store.tokenEscrow
  found : n.peers params.dstEid = some peer
  amounts : computeFeeAndAdjustAmount params.amountLd n.store n.tokens.mint clock peer.feeBps =
    .ok (out.receipt.amountSentLd, out.receipt.amountReceivedLd, out.oftFeeLd)
  slippage : params.minAmountLd ≤ out.receipt.amountReceivedLd
  consumed : onLimiter peer.outboundRateLimiter
    (·.tryConsume clock out.receipt.amountReceivedLd) = .ok outbound
  refilled : onLimiter peer.inboundRateLimiter
    (·.refill clock out.receipt.amountReceivedLd) = .ok inbound
  node : out.node = Node.setPeer
    { n with store := { n.store with tvlLd := out.node.store.tvlLd }, tokens := out.node.tokens }
    params.dstEid { peer with outboundRateLimiter := outbound, inboundRateLimiter := inbound }
  taken : Taken n acc clock.epoch out.receipt.amountSentLd out.receipt.amountReceivedLd
    out.oftFeeLd out.node.store.tvlLd out.node.tokens
  dstEid : out.request.dstEid = params.dstEid
  receiver : out.request.receiver = peer.peerAddress
  message : ∃ amountSd : UInt64,
    out.receipt.amountReceivedLd.toNat / n.store.ld2sdRate.toNat = amountSd.toNat ∧
    out.request.message =
      MsgCodec.encode params.toAddress amountSd acc.signer.pubkey params.composeMsg
  options : peer.enforcedOptions.combineOptions env params.composeMsg params.options =
    .ok out.request.options

theorem prepared {env : Externals} {clock : Clock} {n : Node} {acc : Accounts}
    {remaining : List LzAccount} {params : SendParams} {out : Outcome}
    (h : prepare env clock n acc remaining params = .ok out) :
    ∃ peer outbound inbound, Prepared env clock n acc params out peer outbound inbound := by
  simp only [prepare, Except.bind_eq_ok, Except.require_eq_ok, Except.pure_eq_ok, orAbort_eq_ok,
    OFTStore.ld2sd_eq_ok] at h
  obtain ⟨peer, hacc, -, hrunning, ⟨sent, received, fee⟩, hamounts, -, hslippage, outbound,
    hconsumed, inbound, hrefilled, ⟨tvlLd, tokens⟩, htake, -, -, -, -, amountSd, ⟨-, hsd⟩, options,
    hoptions, rfl⟩ := h
  have hconstrained := constrained hacc
  exact ⟨peer, outbound, inbound, {
    signed := hconstrained.signed
    running := hrunning
    escrow := hconstrained.escrow.1
    found := hconstrained.found
    amounts := hamounts
    slippage := hslippage
    consumed := hconsumed
    refilled := hrefilled
    node := rfl
    taken := taken htake
    dstEid := rfl
    receiver := rfl
    message := ⟨amountSd, hsd, rfl⟩
    options := hoptions }⟩

/-- A successful `apply` is a prepared send that the endpoint took. -/
theorem apply_eq_ok {env : Externals} {clock : Clock} {endpoint : Endpoint} {n : Node}
    {acc : Accounts} {remaining : List LzAccount} {params : SendParams}
    {r : Outcome × MessagingReceipt × OFTSent}
    (h : apply env clock endpoint n acc remaining params = .ok r) :
    prepare env clock n acc remaining params = .ok r.1 ∧
      endpoint.send remaining r.1.request = some r.2.1 ∧
      r.2.2 = ⟨r.2.1.guid, params.dstEid, acc.tokenSource.pubkey, r.1.receipt.amountSentLd,
        r.1.receipt.amountReceivedLd⟩ := by
  simp only [apply, Except.bind_eq_ok, Except.okOr_eq_ok, Except.pure_eq_ok] at h
  obtain ⟨out, hprepare, msgReceipt, hsend, rfl⟩ := h
  exact ⟨hprepare, hsend, rfl⟩

end Send

end CrossChain
