import CrossChain.Solana.Send

/-!
# CrossChain.Solana.Quote

The two quotes (instructions/quote_oft.rs, instructions/quote_send.rs): what
a send would cost, computed from the same amounts and changing nothing.
-/

namespace CrossChain

/-- The accounts of `QuoteOFT` and of `QuoteSend`. -/
structure QuoteAccounts where
  oftStore : LzAccount
  peer : LzAccount
  tokenMint : LzAccount
  deriving DecidableEq, Repr

/-- Their constraints; the peer they find. -/
def QuoteAccounts.tryAccounts (env : Externals) (n : Node) (acc : QuoteAccounts)
    (dstEid : UInt32) : Result PeerConfig := do
  let peer ← okOr (n.peers dstEid) .constraint
  require (n.StoreAt env acc.oftStore) .constraint
  require (n.PeerAt env dstEid peer acc.peer) .constraint
  require (acc.tokenMint.pubkey = n.store.tokenMint ∧
    env.isTokenProgram n.tokens.mint.tokenProgram) .constraint
  pure peer

theorem QuoteAccounts.found_of_tryAccounts {env : Externals} {n : Node} {acc : QuoteAccounts}
    {dstEid : UInt32} {peer : PeerConfig} (h : acc.tryAccounts env n dstEid = .ok peer) :
    n.peers dstEid = some peer := by
  simp only [tryAccounts, Except.bind_eq_ok, Except.okOr_eq_ok, Except.pure_eq_ok] at h
  obtain ⟨peer', hfound, -, -, -, -, -, -, rfl⟩ := h
  exact hfound

/-! ## `quote_oft` -/

/-- `QuoteOFTParams`. -/
structure QuoteOFTParams where
  dstEid : UInt32
  toAddress : FixedBytes 32
  amountLd : UInt64
  minAmountLd : UInt64
  options : List UInt8
  composeMsg : Option (List UInt8)
  payInLzToken : Bool
  deriving DecidableEq, Repr

/-- `OFTLimits`. -/
structure OFTLimits where
  minAmountLd : UInt64
  maxAmountLd : UInt64
  deriving DecidableEq, Repr

/-- `OFTFeeDetail`. -/
structure OFTFeeDetail where
  feeAmountLd : UInt64
  description : String
  deriving DecidableEq, Repr

/-- `QuoteOFTResult`. -/
structure QuoteOFTResult where
  oftLimits : OFTLimits
  oftFeeDetails : List OFTFeeDetail
  oftReceipt : OFTReceipt
  deriving DecidableEq, Repr

namespace QuoteOFT

/-- The detail for what the mint's transfer fee takes, if it takes any. -/
def transferFeeDetails (amountSentLd amountReceivedLd oftFeeLd : UInt64) :
    Result (List OFTFeeDetail) := do
  let accounted ← orAbort (amountReceivedLd.checkedAdd oftFeeLd)
  if accounted < amountSentLd then
    let afterOftFee ← orAbort (amountSentLd.checkedSub oftFeeLd)
    let feeAmountLd ← orAbort (afterOftFee.checkedSub amountReceivedLd)
    pure [{ feeAmountLd, description := "Token2022 Transfer Fee" }]
  else pure []

/-- The detail for the cross chain fee, if there is one. -/
def crossChainFeeDetails (oftFeeLd : UInt64) : List OFTFeeDetail :=
  if 0 < oftFeeLd then [{ feeAmountLd := oftFeeLd, description := "Cross Chain Fee" }] else []

/-- `QuoteOFT::apply`, after its constraints. -/
def apply (env : Externals) (clock : Clock) (n : Node) (acc : QuoteAccounts)
    (params : QuoteOFTParams) : Result QuoteOFTResult := do
  let peer ← acc.tryAccounts env n params.dstEid
  require (n.store.paused = false) (.oft .paused)
  let (amountSentLd, amountReceivedLd, oftFeeLd) ←
    computeFeeAndAdjustAmount params.amountLd n.store n.tokens.mint clock peer.feeBps
  require (params.minAmountLd ≤ amountReceivedLd) (.oft .slippageExceeded)
  let transferFee ← transferFeeDetails amountSentLd amountReceivedLd oftFeeLd
  pure {
    oftLimits := { minAmountLd := 0, maxAmountLd := 0xffffffffffffffff }
    oftFeeDetails := transferFee ++ crossChainFeeDetails oftFeeLd
    oftReceipt := { amountSentLd, amountReceivedLd } }

theorem running_of_apply {env : Externals} {clock : Clock} {n : Node} {acc : QuoteAccounts}
    {params : QuoteOFTParams} {r : QuoteOFTResult} (h : apply env clock n acc params = .ok r) :
    n.store.paused = false := by
  simp only [apply, Except.bind_eq_ok, Except.require_eq_ok] at h
  obtain ⟨-, -, -, hrunning, -⟩ := h
  exact hrunning

end QuoteOFT

/-! ## `quote_send` -/

/-- `QuoteSendParams`. -/
structure QuoteSendParams where
  dstEid : UInt32
  toAddress : FixedBytes 32
  amountLd : UInt64
  minAmountLd : UInt64
  options : List UInt8
  composeMsg : Option (List UInt8)
  payInLzToken : Bool
  deriving DecidableEq, Repr

namespace QuoteSend

/-- `QuoteSend::apply` up to the endpoint call: the call to make. -/
def prepare (env : Externals) (clock : Clock) (n : Node) (acc : QuoteAccounts)
    (params : QuoteSendParams) : Result QuoteParams := do
  let peer ← acc.tryAccounts env n params.dstEid
  require (n.store.paused = false) (.oft .paused)
  let (_, amountReceivedLd, _) ←
    computeFeeAndAdjustAmount params.amountLd n.store n.tokens.mint clock peer.feeBps
  require (params.minAmountLd ≤ amountReceivedLd) (.oft .slippageExceeded)
  let options ← peer.enforcedOptions.combineOptions env params.composeMsg params.options
  pure {
    sender := acc.oftStore.pubkey
    dstEid := params.dstEid
    receiver := peer.peerAddress
    -- the amount is passed in local decimals
    message := MsgCodec.encode params.toAddress amountReceivedLd .default params.composeMsg
    payInLzToken := params.payInLzToken
    options }

/-- `QuoteSend::apply`. -/
def apply (env : Externals) (clock : Clock) (endpoint : Endpoint) (n : Node)
    (acc : QuoteAccounts) (remaining : List LzAccount) (params : QuoteSendParams) :
    Result MessagingFee := do
  let request ← prepare env clock n acc params
  okOr (endpoint.quote remaining request) .cpi

theorem running_of_apply {env : Externals} {clock : Clock} {endpoint : Endpoint} {n : Node}
    {acc : QuoteAccounts} {remaining : List LzAccount} {params : QuoteSendParams}
    {r : MessagingFee} (h : apply env clock endpoint n acc remaining params = .ok r) :
    n.store.paused = false := by
  simp only [apply, prepare, Except.bind_eq_ok, Except.require_eq_ok] at h
  obtain ⟨-, ⟨-, -, -, hrunning, -⟩, -⟩ := h
  exact hrunning

/-- What a prepared quote asks the endpoint. -/
structure Prepared (env : Externals) (clock : Clock) (n : Node)
    (params : QuoteSendParams) (request : QuoteParams) (peer : PeerConfig) : Prop where
  found : n.peers params.dstEid = some peer
  dstEid : request.dstEid = params.dstEid
  receiver : request.receiver = peer.peerAddress
  message : ∃ sent received fee, computeFeeAndAdjustAmount params.amountLd n.store n.tokens.mint
      clock peer.feeBps = .ok (sent, received, fee) ∧
    request.message = MsgCodec.encode params.toAddress received .default params.composeMsg
  options : peer.enforcedOptions.combineOptions env params.composeMsg params.options =
    .ok request.options

theorem prepared {env : Externals} {clock : Clock} {n : Node} {acc : QuoteAccounts}
    {params : QuoteSendParams} {request : QuoteParams}
    (h : prepare env clock n acc params = .ok request) :
    ∃ peer, Prepared env clock n params request peer := by
  simp only [prepare, Except.bind_eq_ok, Except.pure_eq_ok] at h
  obtain ⟨peer, hacc, -, -, ⟨sent, received, fee⟩, hamounts, -, -, options, hoptions, rfl⟩ := h
  exact ⟨peer, {
    found := QuoteAccounts.found_of_tryAccounts hacc
    dstEid := rfl
    receiver := rfl
    message := ⟨sent, received, fee, hamounts, rfl⟩
    options := hoptions }⟩

end QuoteSend

end CrossChain
